import Mathlib.Data.List.Induction
import Mathlib.Data.List.Nodup
import CqlDdl.Entries

/-! Maps whose keys have names. Puts by name leave one entry for each name, where the first put of
that name left it, with the key and the value of the last one. A map that tells its keys apart as
objects comes to the same, when it is cleared and filled anew at every put that finds a name in it.
Main statements: `Entries.foldl_putNamed` and `Entries.foldl_replace`. -/

namespace CqlDdl.Entries

section

variable {κ ν ω : Type} [DecidableEq ω]

/-- The names of the keys, in order. -/
def names (name : κ → ω) (entries : List (κ × ν)) : List ω :=
  entries.map fun entry => name entry.1

/-- The first entry of a name. -/
def named? (name : κ → ω) (entries : List (κ × ν)) (n : ω) : Option (κ × ν) :=
  entries.find? fun entry => name entry.1 = n

/-- Puts an entry in the place of the one of its name, or at the end. -/
def putNamed (name : κ → ω) (entries : List (κ × ν)) (entry : κ × ν) : List (κ × ν) :=
  put (fun key => name entry.1 = name key) entry.1 entry.2 entries

/-- One entry for each name among some puts: in the order in which the names come first, and each
with the key and the value that come last. -/
def byName (name : κ → ω) (puts : List (κ × ν)) : List (κ × ν) :=
  (names name puts).eraseDups.filterMap (named? name puts.reverse)

variable {name : κ → ω}

theorem putNamed_cons_of_eq {entry first : κ × ν} (h : name entry.1 = name first.1)
    (rest : List (κ × ν)) : putNamed name (first :: rest) entry = entry :: rest := by
  simp [putNamed, put, h]

theorem putNamed_cons_of_ne {entry first : κ × ν} (h : name entry.1 ≠ name first.1)
    (rest : List (κ × ν)) :
    putNamed name (first :: rest) entry = first :: putNamed name rest entry := by
  simp [putNamed, put, h]

theorem names_putNamed (entries : List (κ × ν)) (entry : κ × ν) :
    names name (putNamed name entries entry) =
      if name entry.1 ∈ names name entries then names name entries
      else names name entries ++ [name entry.1] := by
  induction entries with
  | nil => simp [names, putNamed, put]
  | cons first rest ih =>
    by_cases h : name entry.1 = name first.1
    · simp [putNamed_cons_of_eq h, names, h]
    · have hmem : name entry.1 ∈ names name (first :: rest) ↔ name entry.1 ∈ names name rest := by
        simp [names, h]
      have hcons : ∀ es : List (κ × ν), names name (first :: es) = name first.1 :: names name es :=
        fun _ => rfl
      rw [putNamed_cons_of_ne h, hcons, ih, hcons]
      simp only [← hcons, hmem]
      split <;> rfl

theorem named?_putNamed (entries : List (κ × ν)) (entry : κ × ν) (n : ω) :
    named? name (putNamed name entries entry) n =
      if name entry.1 = n then some entry else named? name entries n := by
  induction entries with
  | nil => by_cases hn : name entry.1 = n <;> simp [named?, putNamed, put, hn]
  | cons first rest ih =>
    by_cases h : name entry.1 = name first.1
    · rw [putNamed_cons_of_eq h]
      by_cases hn : name entry.1 = n <;> simp [named?, hn, ← h]
    · rw [putNamed_cons_of_ne h]
      by_cases hn : name first.1 = n
      · have hne : name entry.1 ≠ n := fun heq => h (heq.trans hn.symm)
        simp [named?, hn, hne]
      · simpa [named?, hn] using ih

theorem named?_of_mem {entries : List (κ × ν)} (h : (names name entries).Nodup) {entry : κ × ν}
    (hentry : entry ∈ entries) : named? name entries (name entry.1) = some entry := by
  induction entries with
  | nil => exact nomatch hentry
  | cons first rest ih =>
    obtain ⟨hfirst, hrest⟩ := List.nodup_cons.mp h
    rcases List.mem_cons.mp hentry with rfl | hentry
    · simp [named?]
    · have hne : name first.1 ≠ name entry.1 := by
        intro heq
        have hmem : name entry.1 ∈ names name rest := List.mem_map_of_mem hentry
        rw [← heq] at hmem
        exact hfirst hmem
      simpa [named?, hne] using ih hrest hentry

/-- Where no name comes twice, the names and the entries that they find are the whole map. -/
theorem filterMap_named? {entries : List (κ × ν)} (h : (names name entries).Nodup) :
    (names name entries).filterMap (named? name entries) = entries := by
  induction entries with
  | nil => rfl
  | cons first rest ih =>
    obtain ⟨hfirst, hrest⟩ := List.nodup_cons.mp h
    have hother : ∀ n ∈ names name rest, named? name (first :: rest) n = named? name rest n := by
      intro n hn
      have hne : name first.1 ≠ n := by
        rintro rfl
        exact hfirst hn
      simp [named?, hne]
    have hself : named? name (first :: rest) (name first.1) = some first := by simp [named?]
    have hcons : names name (first :: rest) = name first.1 :: names name rest := rfl
    rw [hcons, List.filterMap_cons_some hself, List.filterMap_congr hother, ih hrest]

/-! ### Runs of puts -/

theorem names_foldl_putNamed [BEq ω] [LawfulBEq ω] (puts : List (κ × ν)) :
    names name (puts.foldl (putNamed name) []) = (names name puts).eraseDups := by
  induction puts using List.reverseRecOn with
  | nil => rfl
  | append_singleton puts entry ih =>
    have happend : names name (puts ++ [entry]) = names name puts ++ [name entry.1] := by
      simp [names]
    rw [List.foldl_append, List.foldl_cons, List.foldl_nil, names_putNamed, ih, happend,
      List.eraseDups_append]
    simp only [List.mem_eraseDups]
    by_cases h : name entry.1 ∈ names name puts <;> simp [h, List.removeAll, List.eraseDups_cons]

theorem nodup_names_putNamed {entries : List (κ × ν)} (h : (names name entries).Nodup)
    (entry : κ × ν) : (names name (putNamed name entries entry)).Nodup := by
  rw [names_putNamed]
  split
  · exact h
  · rename_i hnew
    refine List.nodup_append.mpr ⟨h, List.nodup_singleton _, ?_⟩
    rintro n hn m hm rfl
    exact hnew (List.mem_singleton.mp hm ▸ hn)

theorem nodup_names_foldl_putNamed (puts : List (κ × ν)) :
    (names name (puts.foldl (putNamed name) [])).Nodup := by
  induction puts using List.reverseRecOn with
  | nil => exact List.nodup_nil
  | append_singleton puts entry ih =>
    rw [List.foldl_append]
    exact nodup_names_putNamed ih entry

theorem named?_foldl_putNamed (puts : List (κ × ν)) (n : ω) :
    named? name (puts.foldl (putNamed name) []) n = named? name puts.reverse n := by
  induction puts using List.reverseRecOn with
  | nil => rfl
  | append_singleton puts entry ih =>
    rw [List.foldl_append, List.foldl_cons, List.foldl_nil, named?_putNamed, ih,
      List.reverse_append]
    by_cases h : name entry.1 = n <;> simp [named?, h]

theorem foldl_putNamed (puts : List (κ × ν)) :
    puts.foldl (putNamed name) [] = byName name puts := by
  have hnodup : (names name (puts.foldl (putNamed name) [])).Nodup :=
    nodup_names_foldl_putNamed puts
  have h := filterMap_named? hnodup
  rw [names_foldl_putNamed, funext (named?_foldl_putNamed puts)] at h
  exact h.symm

theorem mem_of_mem_foldl_putNamed {puts : List (κ × ν)} {entry : κ × ν}
    (h : entry ∈ puts.foldl (putNamed name) []) : entry ∈ puts := by
  rw [foldl_putNamed] at h
  obtain ⟨n, -, hn⟩ := List.mem_filterMap.mp h
  exact List.mem_reverse.mp (List.mem_of_find?_eq_some hn)

/-! ### Keys as objects -/

/-- A reading of the keys that keeps their names may come before or after the puts. -/
theorem map_byName {κ' : Type} (read : κ' → κ) (puts : List (κ' × ν)) :
    (byName (fun key => name (read key)) puts).map (Prod.map read id) =
      byName name (puts.map (Prod.map read id)) := by
  have hnames : names name (puts.map (Prod.map read id)) =
      names (fun key => name (read key)) puts := by
    simp [names]
  have hnamed : ∀ n, (named? (fun key => name (read key)) puts.reverse n).map (Prod.map read id) =
      named? name (puts.map (Prod.map read id)).reverse n := by
    intro n
    simp only [named?, ← List.map_reverse, List.find?_map]
    rfl
  rw [byName, byName, List.map_filterMap, hnames]
  exact List.filterMap_congr fun n _ => hnamed n

variable [DecidableEq κ]

/-- Puts an entry in the place of the one under the same key, or at the end. -/
def putKey (entries : List (κ × ν)) (entry : κ × ν) : List (κ × ν) :=
  put (fun key => entry.1 = key) entry.1 entry.2 entries

/-- Puts an entry under its key where its name is new. Where it is not, the map is cleared and
filled with its entries again, but for the one of that name, in whose place the new one comes. -/
def replace (name : κ → ω) (entries : List (κ × ν)) (entry : κ × ν) : List (κ × ν) :=
  match named? name entries (name entry.1) with
  | none => putKey entries entry
  | some existing =>
    (entries.map fun current => if current.1 = existing.1 then entry else current).foldl putKey []

/-- Filling a map with entries under different keys gives these entries. -/
theorem foldl_putKey {entries filled : List (κ × ν)}
    (h : ((filled ++ entries).map Prod.fst).Nodup) :
    entries.foldl putKey filled = filled ++ entries := by
  induction entries generalizing filled with
  | nil => simp
  | cons first rest ih =>
    have hne : ∀ e ∈ filled, decide (first.1 = e.1) = false := by
      intro e he
      rw [List.map_append, List.nodup_append] at h
      have hkeys := h.2.2 e.1 (List.mem_map_of_mem he) first.1 (by simp)
      simpa using hkeys.symm
    have hput : putKey filled first = filled ++ [first] := put_of_forall_ne hne
    rw [List.foldl_cons, hput, ih (by simpa using h)]
    simp

/-- Where no name comes twice, exchanging the entry of a name is a put by name. -/
theorem map_exchange_eq_putNamed {entries : List (κ × ν)} {entry existing : κ × ν}
    (h : (names name entries).Nodup)
    (hexisting : named? name entries (name entry.1) = some existing) :
    (entries.map fun current => if current.1 = existing.1 then entry else current) =
      putNamed name entries entry := by
  have hname : name existing.1 = name entry.1 := by simpa using List.find?_some hexisting
  induction entries with
  | nil => simp [named?] at hexisting
  | cons first rest ih =>
    obtain ⟨hfirst, hrest⟩ := List.nodup_cons.mp h
    by_cases heq : name entry.1 = name first.1
    · obtain rfl : first = existing := by simpa [named?, heq] using hexisting
      have hne : ∀ e ∈ rest, (if e.1 = first.1 then entry else e) = e := by
        intro e he
        have hmem : name e.1 ∈ names name rest := List.mem_map_of_mem he
        refine if_neg fun hkey => hfirst ?_
        rwa [hkey] at hmem
      rw [putNamed_cons_of_eq heq, List.map_cons, if_pos rfl, List.map_congr_left hne, List.map_id']
    · have hkey : first.1 ≠ existing.1 := fun hkey => heq (hname.symm.trans (hkey ▸ rfl))
      have hfound : named? name rest (name entry.1) = some existing := by
        simpa [named?, Ne.symm heq] using hexisting
      rw [putNamed_cons_of_ne heq, List.map_cons, if_neg hkey, ih hrest hfound]

theorem replace_eq_putNamed {entries : List (κ × ν)} (h : (names name entries).Nodup)
    (entry : κ × ν) : replace name entries entry = putNamed name entries entry := by
  unfold replace
  -- An object that is already a key has a name that is found, so the first case only appends.
  cases hexisting : named? name entries (name entry.1) with
  | none =>
    have hne : ∀ e ∈ entries, name entry.1 ≠ name e.1 := by
      intro e he
      have hfind := List.find?_eq_none.mp hexisting e he
      simpa [eq_comm] using hfind
    have hkey : putKey entries entry = entries ++ [entry] :=
      put_of_forall_ne fun e he => decide_eq_false fun heq => hne e he (congrArg name heq)
    have hnamed : putNamed name entries entry = entries ++ [entry] :=
      put_of_forall_ne fun e he => decide_eq_false (hne e he)
    rw [hnamed, ← hkey]
  | some existing =>
    have hkeys : ((putNamed name entries entry).map Prod.fst).Nodup := by
      refine List.Nodup.of_map name ?_
      rw [List.map_map]
      exact nodup_names_putNamed h entry
    exact (congrArg (List.foldl putKey []) (map_exchange_eq_putNamed h hexisting)).trans
      (foldl_putKey hkeys)

/-- A map of objects that is cleared and filled anew ends as the map of the last puts by name. -/
theorem foldl_replace (puts : List (κ × ν)) :
    puts.foldl (replace name) [] = byName name puts := by
  rw [← foldl_putNamed]
  induction puts using List.reverseRecOn with
  | nil => rfl
  | append_singleton puts entry ih =>
    rw [List.foldl_append, List.foldl_append, ih]
    exact replace_eq_putNamed (nodup_names_foldl_putNamed puts) entry

end

end CqlDdl.Entries
