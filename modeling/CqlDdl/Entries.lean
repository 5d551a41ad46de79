import CqlDdl.Outcome

/-! Maps as lists of entries in the order of insertion: an entry that is put again keeps its place
and takes the new key and value. Work on entries that may fail stops at the first failure. -/

namespace CqlDdl.Entries

variable {κ ν : Type}

/-- The entries after one more is put: it replaces the first entry whose key is the `same`, and
stands at the end if there is none. -/
def put (same : κ → Bool) (key : κ) (value : ν) : List (κ × ν) → List (κ × ν)
  | [] => [(key, value)]
  | entry :: rest =>
    if same entry.1 then (key, value) :: rest else entry :: put same key value rest

/-- The results of a function on each entry in order, or the first failure. -/
def traverse {α β ε : Type} (f : α → Except ε β) : List α → Except ε (List β)
  | [] => .ok []
  | a :: rest =>
    match f a with
    | .error e => .error e
    | .ok b =>
      match traverse f rest with
      | .error e => .error e
      | .ok bs => .ok (b :: bs)

/-- A traversal has the results of the function on each entry, in order. -/
theorem traverse_eq_ok_iff {α β ε : Type} {f : α → Except ε β} {l : List α} {r : List β} :
    traverse f l = .ok r ↔ l.map f = r.map Except.ok := by
  induction l generalizing r with
  | nil => cases r <;> simp [traverse]
  | cons a rest ih =>
    cases ha : f a with
    | error e => cases r <;> simp [traverse, ha]
    | ok b =>
      cases ht : traverse f rest with
      | error e =>
        have hne : ∀ bs : List β, rest.map f ≠ bs.map Except.ok := fun bs h => by
          simpa [ht] using ih.mpr h
        cases r <;> simp [traverse, ha, ht, hne]
      | ok bs =>
        have heq : ∀ cs : List β, rest.map f = cs.map Except.ok ↔ bs = cs := fun cs => by
          simp [← ih, ht]
        cases r <;> simp [traverse, ha, ht, heq]

/-- If a function succeeds with one result only, that of `g`, a traversal has the results of `g`. -/
theorem eq_map_of_traverse {α β ε : Type} {f : α → Except ε β} {g : α → β}
    (hf : ∀ a b, f a = .ok b → b = g a) {l : List α} {r : List β} (h : traverse f l = .ok r) :
    r = l.map g := by
  rw [traverse_eq_ok_iff] at h
  induction l generalizing r with
  | nil => simpa using h
  | cons a rest ih =>
    cases r with
    | nil => simp at h
    | cons b bs =>
      obtain ⟨hb, hbs⟩ := List.cons.inj h
      rw [List.map_cons, hf a b hb, ih hbs]

/-- Each result of a traversal is that of the function on some entry. -/
theorem exists_of_mem_traverse {α β ε : Type} {f : α → Except ε β} {l : List α} {r : List β}
    (h : traverse f l = .ok r) {b : β} (hb : b ∈ r) : ∃ a ∈ l, f a = .ok b := by
  have hmem : Except.ok b ∈ l.map f := by
    rw [traverse_eq_ok_iff.mp h]
    exact List.mem_map_of_mem hb
  exact List.mem_map.mp hmem

/-- A traversal fails as the first entry does on which the function fails. -/
theorem failure?_traverse {α β ε : Type} (f : α → Except ε β) (l : List α) :
    Outcome.failure? (traverse f l) = l.findSome? fun a => Outcome.failure? (f a) := by
  induction l with
  | nil => rfl
  | cons a rest ih =>
    rw [List.findSome?_cons, ← ih]
    cases ha : f a with
    | error e => simp [traverse, ha, Outcome.failure?]
    | ok b => cases ht : traverse f rest <;> simp [traverse, ha, ht, Outcome.failure?]

/-- An entry under a new key goes to the end. -/
theorem put_of_forall_ne {same : κ → Bool} {key : κ} {value : ν} {entries : List (κ × ν)}
    (h : ∀ e ∈ entries, same e.1 = false) :
    put same key value entries = entries ++ [(key, value)] := by
  induction entries with
  | nil => rfl
  | cons e rest ih => simp [put, h e (by simp), ih fun d hd => h d (by simp [hd])]

/-- After a put there is the entry that is put, and nothing that was not there before. -/
theorem mem_put {same : κ → Bool} {key : κ} {value : ν} {entries : List (κ × ν)} {entry : κ × ν}
    (h : entry ∈ put same key value entries) : entry = (key, value) ∨ entry ∈ entries := by
  induction entries with
  | nil => exact .inl (List.mem_singleton.mp h)
  | cons e rest ih =>
    by_cases he : same e.1 = true
    · rw [put, if_pos he] at h
      exact (List.mem_cons.mp h).imp_right (List.mem_cons_of_mem e)
    · rw [put, if_neg he] at h
      rcases List.mem_cons.mp h with rfl | h
      · exact .inr List.mem_cons_self
      · exact (ih h).imp_right (List.mem_cons_of_mem e)

end CqlDdl.Entries
