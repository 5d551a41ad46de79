import Mathlib.Data.Nat.Order.Lemmas
import CqlDdl.Proofs.DigitOrder
import CqlDdl.Proofs.ScriptContent
import CqlDdl.Proofs.WholeNumbers

/-! The file names of a series of scripts: they are safe and distinct, and they sort as the scripts
are to be run exactly as long as all versions fit into one width. Main statement:
`Script.fileNames_of_series`. -/

namespace CqlDdl

namespace Text

theorem isFileChar_of_mem_squeezed {inRun : Bool} {text : Text} :
    ∀ c ∈ squeezed inRun text, isFileChar c = true := by
  induction text generalizing inRun with
  | nil => simp [squeezed]
  | cons d rest ih =>
    intro c hc
    unfold squeezed at hc
    split at hc
    · rename_i hd
      rcases List.mem_cons.mp hc with rfl | hc
      · exact hd
      · exact ih c hc
    · split at hc
      · exact ih c hc
      · rcases List.mem_cons.mp hc with rfl | hc
        · decide
        · exact ih c hc

theorem padded_of_length_le {width : Nat} {text : Text} (h : width ≤ text.length) :
    padded width text = text := by
  rw [padded, Nat.sub_eq_zero_of_le h]
  rfl

/-- Texts that start with the numbers from `start` on, filled up to a width, and an underscore. -/
def AreNumbered (width start : Nat) (names : List Text) : Prop :=
  ∀ i name, names[i]? = some name →
    ∃ rest, name = padded width (ofNat (start + i)) ++ '_' :: rest

namespace AreNumbered

variable {width start : Nat} {names : List Text}

theorem nodup (h : AreNumbered width start names) : names.Nodup := by
  refine List.pairwise_iff_getElem.mpr fun i j hi hj hij heq => ?_
  obtain ⟨r, hr⟩ := h i _ (List.getElem?_eq_getElem hi)
  obtain ⟨s, hs⟩ := h j _ (List.getElem?_eq_getElem hj)
  have hunderscore : ∀ t : Text, ∀ c, ('_' :: t).head? = some c → c.isDigit = false :=
    forall_head?_cons (by decide)
  -- The digits end at the underscore, and tell the version.
  have hdigits := (append_inj_of_forall isDigit_of_mem_padded isDigit_of_mem_padded (hunderscore r)
    (hunderscore s) (hr.symm.trans (heq.trans hs))).1
  have hversion : start + i = start + j := by
    rw [← value_padded width (start + i), hdigits, value_padded]
  omega

/-- Where all numbers fit into the width, or have as many digits as the first one, the texts are in
order. -/
theorem pairwise_precedes (h : AreNumbered width start names)
    (hfit : (ofNat (start + names.length - 1)).length ≤ max width (ofNat start).length) :
    names.Pairwise Precedes := by
  refine List.pairwise_iff_getElem.mpr fun i j hi hj hij => ?_
  obtain ⟨r, hr⟩ := h i _ (List.getElem?_eq_getElem hi)
  obtain ⟨s, hs⟩ := h j _ (List.getElem?_eq_getElem hj)
  -- The number of digits grows with the versions, so that the first and the last one bound it.
  have hwidth : ∀ k, k < names.length →
      max width (ofNat (start + k)).length = max width (ofNat start).length := by
    intro k hk
    have hfirst := length_ofNat_le (Nat.le_add_right start k)
    have hlast : (ofNat (start + k)).length ≤ (ofNat (start + names.length - 1)).length :=
      length_ofNat_le (by omega)
    omega
  rw [hr, hs]
  refine precedes_of_value_lt isDigit_of_mem_padded isDigit_of_mem_padded ?_ ?_ _ _
  · rw [length_padded, length_padded, hwidth i hi, hwidth j hj]
  · rw [value_padded, value_padded]
    omega

/-- Where a number does not fit, there is a first one that does not: it comes before the number
below it, since it starts with smaller digits. -/
theorem not_pairwise_precedes (h : AreNumbered width start names) (hne : names ≠ [])
    (hfit : max width (ofNat start).length < (ofNat (start + names.length - 1)).length) :
    ¬ names.Pairwise Precedes := by
  intro hpairwise
  have hcount : 0 < names.length := List.length_pos_of_ne_nil hne
  obtain ⟨k, hk, hnext⟩ := Nat.exists_not_and_succ_of_not_zero_of_exists
    (p := fun k => max width (ofNat start).length < (ofNat (start + k)).length)
    (by simp) ⟨names.length - 1, by rwa [← Nat.add_sub_assoc hcount]⟩
  have hlast : k + 1 < names.length := by
    by_contra hlarge
    have hmore : (ofNat (start + names.length - 1)).length ≤ (ofNat (start + k)).length :=
      length_ofNat_le (by omega)
    omega
  -- Version `k` fills the width with its own digits, and the next one has a digit more.
  have hplace : start + (k + 1) = start + k + 1 := rfl
  have hstep := length_ofNat_succ_le (start + k)
  rw [hplace] at hnext
  obtain ⟨r, hr⟩ := h k _ (List.getElem?_eq_getElem (Nat.lt_of_succ_lt hlast))
  obtain ⟨s, hs⟩ := h (k + 1) _ (List.getElem?_eq_getElem hlast)
  have hbefore : Precedes names[k] names[k + 1] :=
    List.pairwise_iff_getElem.mp hpairwise k (k + 1) _ hlast (Nat.lt_succ_self k)
  rw [hr, hs, hplace, padded_of_length_le (by omega), padded_of_length_le (by omega)] at hbefore
  exact hbefore.asymm (precedes_of_length_lt (by omega) _ _)

theorem pairwise_precedes_iff (h : AreNumbered width start names) (hne : names ≠ []) :
    names.Pairwise Precedes ↔
      (ofNat (start + names.length - 1)).length ≤ max width (ofNat start).length :=
  ⟨fun hpairwise => Nat.le_of_not_lt fun hfit => h.not_pairwise_precedes hne hfit hpairwise,
    h.pairwise_precedes⟩

end AreNumbered

end Text

namespace Script

open Binary64 (IsWhole isWhole_ofNat exactLimit)

/-- A safe name of a file: digits, an underscore, characters of file names, and the ending. -/
def IsSafe (fileName : Text) : Prop :=
  ∃ digits slug, fileName = digits ++ '_' :: slug ++ ".cql".toList ∧
    Text.isDigits digits = true ∧ slug ≠ [] ∧ ∀ c ∈ slug, Text.isFileChar c = true

theorem isFileChar_of_mem_nameOf (s : Statement) : ∀ c ∈ nameOf s, Text.isFileChar c = true := by
  intro c hc
  rcases List.mem_append.mp hc with hc | hc
  · have hword : (Text.snakeCase s.kind.word).all Text.isFileChar = true := by cases s <;> rfl
    exact List.all_eq_true.mp hword c hc
  · rcases List.mem_cons.mp hc with rfl | hc
    · decide
    · exact Text.isFileChar_of_mem_squeezed c hc

theorem isSafe_fileNameOf (s : Statement) (n padding : Nat) :
    IsSafe (Text.padded padding (Text.ofNat n) ++ '_' :: nameOf s ++ ".cql".toList) := by
  refine ⟨_, _, rfl, ?_, by simp [nameOf], isFileChar_of_mem_nameOf s⟩
  have hlength := Text.length_padded padding (Text.ofNat n)
  have hpos := Text.length_ofNat_pos n
  have hne : Text.padded padding (Text.ofNat n) ≠ [] := List.ne_nil_of_length_pos (by omega)
  simpa [Text.isDigits, hne] using Text.isDigit_of_mem_padded

/-! ### Series -/

theorem exists_ofStatement {s : Statement} {text : Text} (h : s.render = .ok text)
    (options : ScriptOptions) (version : Binary64) :
    ∃ script, ofStatement s options (some version) = .ok script := by
  rw [ofStatement, contentOf_eq h]
  exact ⟨_, rfl⟩

/-- A series has the scripts of its statements, each under the version that is as far above the
first one as the statement is from the start. -/
theorem exists_seriesFrom {options : ScriptOptions} {start : Nat}
    (hstart : options.startVersion.IsWhole start) {statements : List Statement} (index : Nat)
    (hrender : ∀ s ∈ statements, ∃ text, s.render = .ok text)
    (hlast : index + statements.length ≤ exactLimit + 1) :
    ∃ scripts, seriesFrom options index statements = .ok scripts ∧
      scripts.length = statements.length ∧
      ∀ i s, statements[i]? = some s → ∃ script, scripts[i]? = some script ∧
        ofStatement s options (some (Binary64.ofNat (start + (index + i)))) = .ok script := by
  induction statements generalizing index with
  | nil => exact ⟨[], rfl, rfl, by simp⟩
  | cons s rest ih =>
    obtain ⟨⟨text, htext⟩, hrest⟩ := List.forall_mem_cons.mp hrender
    rw [List.length_cons] at hlast
    obtain ⟨script, hscript⟩ :=
      exists_ofStatement htext options (Binary64.ofNat (start + index))
    obtain ⟨scripts, hscripts, hlength, hall⟩ := ih (index + 1) hrest (by omega)
    refine ⟨script :: scripts, ?_, by simp [hlength], fun i t ht => ?_⟩
    · rw [seriesFrom, hstart.add_ofNat (by omega), hscript, hscripts]
      rfl
    · cases i with
      | zero =>
        obtain rfl : s = t := by simpa using ht
        exact ⟨script, rfl, hscript⟩
      | succ i =>
        have hplace : index + (i + 1) = index + 1 + i := by omega
        rw [hplace]
        exact hall i t (by simpa using ht)

theorem fileName_of_ofStatement {s : Statement} {options : ScriptOptions} {n : Nat}
    (hn : n ≤ exactLimit) {script : Script}
    (h : ofStatement s options (some (Binary64.ofNat n)) = .ok script) :
    script.version = Binary64.ofNat n ∧ script.fileName =
      Text.padded options.versionPadding (Text.ofNat n) ++ '_' :: nameOf s ++ ".cql".toList := by
  rw [ofStatement, Option.getD_some] at h
  obtain ⟨content, -, rfl⟩ := Outcome.map_eq_ok_iff.mp h
  simp only [fileNameOf, Binary64.text_ofNat hn, and_self]

/-- A series of scripts from a whole number on, none of them beyond the limit up to which numbers
are exact. There is one script for each statement, in their order and with versions that count up;
its file name is safe. All file names differ, and they are in order exactly if the last version has
no more digits than the width they are filled up to, or than the first version. -/
theorem fileNames_of_series {statements : List Statement} (hne : statements ≠ [])
    (hrender : ∀ s ∈ statements, ∃ text, s.render = .ok text) (options : ScriptOptions)
    {start : Nat} (hstart : options.startVersion.IsWhole start)
    (hlast : start + statements.length - 1 ≤ exactLimit) :
    ∃ scripts, series options statements = .ok scripts ∧
      scripts.length = statements.length ∧
      (∀ i s, statements[i]? = some s → ∃ script, scripts[i]? = some script ∧
        ofStatement s options (some (options.startVersion + Binary64.ofNat i)) = .ok script ∧
        script.version.IsWhole (start + i) ∧ IsSafe script.fileName) ∧
      (scripts.map Script.fileName).Nodup ∧
      ((scripts.map Script.fileName).Pairwise Text.Precedes ↔
        (Text.ofNat (start + statements.length - 1)).length ≤
          max options.versionPadding (Text.ofNat start).length) := by
  have hcount : 0 < statements.length := List.length_pos_of_ne_nil hne
  obtain ⟨scripts, hseries, hlength, hall⟩ :=
    exists_seriesFrom hstart 0 hrender (by omega)
  simp only [Nat.zero_add] at hall
  have hnumbered : Text.AreNumbered options.versionPadding start
      (scripts.map Script.fileName) := by
    intro i name hname
    rw [List.getElem?_map] at hname
    obtain ⟨script, hscript, rfl⟩ := Option.map_eq_some_iff.mp hname
    have hi : i < statements.length := hlength ▸ (List.getElem?_eq_some_iff.mp hscript).1
    obtain ⟨other, hother, hmade⟩ := hall i _ (List.getElem?_eq_getElem hi)
    obtain rfl : other = script := Option.some.inj (hother.symm.trans hscript)
    exact ⟨_, by rw [(fileName_of_ofStatement (by omega) hmade).2, List.append_assoc]; rfl⟩
  refine ⟨scripts, hseries, hlength, fun i s hs => ?_, hnumbered.nodup, ?_⟩
  · have hi : i < statements.length := (List.getElem?_eq_some_iff.mp hs).1
    obtain ⟨script, hscript, hmade⟩ := hall i s hs
    obtain ⟨hversion, hfileName⟩ := fileName_of_ofStatement (by omega) hmade
    refine ⟨script, hscript, ?_, ?_, ?_⟩
    · rw [hstart.add_ofNat (by omega), hmade]
    · rw [hversion]
      exact isWhole_ofNat (by omega)
    · rw [hfileName]
      exact isSafe_fileNameOf s (start + i) options.versionPadding
  · have hnames : scripts.map Script.fileName ≠ [] := by
      refine List.ne_nil_of_length_pos ?_
      rw [List.length_map]
      omega
    rw [hnumbered.pairwise_precedes_iff hnames, List.length_map, hlength]

/-- Three statements on one keyspace, the name of which has characters that no file name has. -/
def drops : List Statement :=
  let name : Identifier := ⟨"My\"Shop".toList, true, by decide, by decide⟩
  [.dropKeyspace { name }, .dropKeyspace { name, ifExists := true }, .dropKeyspace { name }]

def fromEight (width : Nat) : ScriptOptions where
  startVersion := Binary64.ofNat 8
  versionPadding := width

/-- Version 10 has a digit more than versions 8 and 9, so that the scripts sort as they are to be
run only if the width has room for it. -/
theorem fileNames_drops :
    (∃ scripts, series (fromEight 1) drops = .ok scripts ∧
      (scripts.map Script.fileName).Nodup ∧
      ¬ (scripts.map Script.fileName).Pairwise Text.Precedes) ∧
    ∃ scripts, series (fromEight 2) drops = .ok scripts ∧
      (scripts.map Script.fileName).Pairwise Text.Precedes := by
  have hne : drops ≠ [] := by simp [drops]
  have hrender : ∀ s ∈ drops, ∃ text, s.render = .ok text := by
    simp [drops, Statement.render]
  have hstart : ∀ width, (fromEight width).startVersion.IsWhole 8 := by
    intro width
    simp only [fromEight]
    exact isWhole_ofNat (by decide)
  have hlast : 8 + drops.length - 1 ≤ exactLimit := by decide
  obtain ⟨scripts, hscripts, -, -, hnodup, horder⟩ :=
    fileNames_of_series hne hrender (fromEight 1) (hstart 1) hlast
  obtain ⟨wider, hwider, -, -, -, hfit⟩ :=
    fileNames_of_series hne hrender (fromEight 2) (hstart 2) hlast
  exact ⟨⟨scripts, hscripts, hnodup, fun h => absurd (horder.mp h) (by decide)⟩,
    wider, hwider, hfit.mpr (by decide)⟩

end Script

end CqlDdl
