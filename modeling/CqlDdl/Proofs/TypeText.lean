import CqlDdl.Proofs.Separation

/-! What the text of a type tells of the type. A type with parameters is read off by its word and by
the brackets after it, parameter by parameter; one without is a run of the characters of names. All
that the text leaves open is whether a bare name without a keyspace, where it is the word for a
native type, stands for that type or for a declared one. Main statement:
`DataType.render_eq_iff_normal_eq`. -/

namespace CqlDdl

theorem NativeType.ofWord?_word (type : NativeType) : ofWord? type.word = some type := by
  cases type <;> decide

theorem NativeType.isNamePart_of_mem_word (type : NativeType) :
    ∀ c ∈ type.word, Text.isNamePart c = true :=
  List.all_eq_true.mp (by cases type <;> decide)

/-- The native type whose word is written as the name is: bare, and without a keyspace. -/
def QualifiedName.native? (n : QualifiedName) : Option NativeType :=
  match n.keyspace with
  | some _ => none
  | none => if n.name.quoted then none else NativeType.ofWord? n.name.name

theorem QualifiedName.render_of_native? {n : QualifiedName} {type : NativeType}
    (h : n.native? = some type) : n.render = type.word := by
  unfold native? at h
  split at h
  · simp at h
  rename_i hkeyspace
  split at h
  · simp at h
  rename_i hquoted
  have hword : type.word = n.name.name := by simpa using List.find?_some h
  rw [hword, render, hkeyspace]
  exact Identifier.render_of_bare (by simpa using hquoted)

theorem QualifiedName.native?_of_render {n : QualifiedName} {type : NativeType}
    (h : n.render = type.word) : n.native? = some type := by
  have hparts := type.isNamePart_of_mem_word
  rw [← h] at hparts
  cases hkeyspace : n.keyspace with
  | some keyspace =>
    have hpoint : '.' ∈ n.render := by simp [render, hkeyspace]
    exact absurd (hparts '.' hpoint) (by decide)
  | none =>
    have hrender : n.render = n.name.render := by simp [render, hkeyspace]
    rw [hrender] at h hparts
    cases hquoted : n.name.quoted with
    | true =>
      have hmark : Text.quotation ∈ n.name.render := by simp [Identifier.render_of_quoted hquoted]
      exact absurd (hparts _ hmark) (by decide)
    | false =>
      rw [Identifier.render_of_bare hquoted] at h
      simp [native?, hkeyspace, hquoted, h, NativeType.ofWord?_word]

namespace DataType

mutual

/-- The type with a native type in place of every declared one that is written like it. -/
def normal : DataType → DataType
  | native type => native type
  | list element => list (normal element)
  | set element => set (normal element)
  | map key value => map (normal key) (normal value)
  | tuple elements => tuple (normalEach elements)
  | frozen inner => frozen (normal inner)
  | declared name =>
    match name.native? with
    | some type => native type
    | none => declared name

/-- Each of several types with native types in place of those that are written like them. -/
def normalEach : List DataType → List DataType
  | [] => []
  | type :: rest => normal type :: normalEach rest

end

theorem normalEach_eq_map (types : List DataType) : normalEach types = types.map normal := by
  induction types with
  | nil => rfl
  | cons type rest ih => simp [normalEach, ih]

/-! ### Types with parameters -/

/-- The word of a type that has parameters, and the parameters. -/
def applied? : DataType → Option (Text × List DataType)
  | native _ | declared _ => none
  | list element => some ("list".toList, [element])
  | set element => some ("set".toList, [element])
  | map key value => some ("map".toList, [key, value])
  | tuple elements => some ("tuple".toList, elements)
  | frozen inner => some ("frozen".toList, [inner])

section

variable {a b : DataType} {word : Text} {parameters : List DataType}

theorem render_of_applied? (h : a.applied? = some (word, parameters)) :
    a.render = word ++ '<' :: (Text.joined ", ".toList (parameters.map render) ++ ['>']) := by
  cases a with
  | native type | declared name => simp [applied?] at h
  | list element | set element | map key value | frozen inner =>
    obtain ⟨rfl, rfl⟩ := Prod.mk.inj (Option.some.inj h)
    simp [Text.joined]
  | tuple elements =>
    obtain ⟨rfl, rfl⟩ := Prod.mk.inj (Option.some.inj h)
    simp [renderEach_eq_map]

theorem render_append_of_applied? (h : a.applied? = some (word, parameters)) (rest : Text) :
    a.render ++ rest =
      word ++ '<' :: (Text.joined ", ".toList (parameters.map render) ++ '>' :: rest) := by
  simp [render_of_applied? h]

theorem isInner_of_applied? (h : a.applied? = some (word, parameters)) :
    ∀ c ∈ word, isInner c = true := by
  refine List.all_eq_true.mp ?_
  cases a with
  | native type | declared name => simp [applied?] at h
  | list element | set element | map key value | tuple elements | frozen inner =>
    obtain ⟨rfl, rfl⟩ := Prod.mk.inj (Option.some.inj h)
    decide

theorem isInner_of_applied?_eq_none (h : a.applied? = none) :
    ∀ c ∈ a.render, isInner c = true := by
  cases a with
  | native type => exact isInner_word type
  | declared name => exact QualifiedName.isInner_of_mem_render
  | list element | set element | map key value | tuple elements | frozen inner =>
    simp [applied?] at h

theorem applied?_normal (h : a.applied? = some (word, parameters)) :
    a.normal.applied? = some (word, parameters.map normal) := by
  cases a with
  | native type | declared name => simp [applied?] at h
  | list element | set element | map key value | frozen inner =>
    obtain ⟨rfl, rfl⟩ := Prod.mk.inj (Option.some.inj h)
    rfl
  | tuple elements =>
    obtain ⟨rfl, rfl⟩ := Prod.mk.inj (Option.some.inj h)
    simp [normal, applied?, normalEach_eq_map]

theorem eq_of_applied?_eq (h : a.applied? = b.applied?) (hne : a.applied? ≠ none) : a = b := by
  cases a <;> cases b <;> simp_all [applied?]

theorem sizeOf_lt_of_applied? (h : a.applied? = some (word, parameters)) :
    ∀ p ∈ parameters, sizeOf p < sizeOf a := by
  intro p hp
  cases a with
  | native type | declared name => simp [applied?] at h
  | list element | set element | frozen inner =>
    obtain ⟨rfl, rfl⟩ := Prod.mk.inj (Option.some.inj h)
    obtain rfl := List.mem_singleton.mp hp
    simp
  | map key value =>
    obtain ⟨rfl, rfl⟩ := Prod.mk.inj (Option.some.inj h)
    have hpair : p = key ∨ p = value := by simpa using hp
    rw [map.sizeOf_spec]
    rcases hpair with rfl | rfl <;> omega
  | tuple elements =>
    obtain ⟨rfl, rfl⟩ := Prod.mk.inj (Option.some.inj h)
    have hlt := List.sizeOf_lt_of_mem hp
    rw [tuple.sizeOf_spec]
    omega

end

/-- What holds of a type whenever it holds of its parameters holds of every type. -/
theorem induction_on_parameters {motive : DataType → Prop}
    (step : ∀ type : DataType, (∀ word parameters, type.applied? = some (word, parameters) →
      ∀ p ∈ parameters, motive p) → motive type) (type : DataType) : motive type :=
  step type fun _ _ h p hp =>
    have := sizeOf_lt_of_applied? h p hp
    induction_on_parameters step p
termination_by type

theorem render_normal (type : DataType) : type.normal.render = type.render := by
  induction type using induction_on_parameters with
  | step type ih =>
    cases h : type.applied? with
    | none =>
      cases type with
      | native type => rfl
      | declared name =>
        cases hnative : name.native? with
        | some type => simp [normal, hnative, QualifiedName.render_of_native? hnative]
        | none => simp [normal, hnative]
      | list element | set element | map key value | tuple elements | frozen inner =>
        simp [applied?] at h
    | some applied =>
      obtain ⟨word, parameters⟩ := applied
      have hparameters : (parameters.map normal).map render = parameters.map render := by
        rw [List.map_map]
        exact List.map_congr_left fun p hp => ih word parameters h p hp
      rw [render_of_applied? (applied?_normal h), render_of_applied? h, hparameters]

/-! ### Types by their texts -/

/-- What ends a type, within brackets or outside of them: no character of names, no point, and no
bracket that opens. -/
def Ends (rest : Text) : Prop :=
  ∀ c, rest.head? = some c → isInner c = false ∧ c ≠ '<'

theorem ends_cons {c : Char} (rest : Text) (h : isInner c = false ∧ c ≠ '<') :
    Ends (c :: rest) :=
  Text.forall_head?_cons h rest

theorem exists_render_eq_cons (type : DataType) :
    ∃ c rest, type.render = c :: rest ∧ isInner c = true := by
  cases type with
  | native type => cases type <;> exact ⟨_, _, rfl, by decide⟩
  | declared name =>
    obtain ⟨first, rest, -, hname⟩ := name.exists_render_append_eq (r := []) QualifiedName.ends_nil
    obtain ⟨c, more, hfirst, -⟩ := first.exists_render_eq_cons
    have hinner := first.isInner_of_mem_render c (by simp [hfirst])
    rw [List.append_nil, hfirst] at hname
    exact ⟨c, more ++ rest, hname, hinner⟩
  | list | set | map | tuple | frozen => exact ⟨_, _, rfl, by decide⟩

/-- Without parameters, only a declared type that is written like a native one shares its text. -/
theorem normal_eq_of_applied?_eq_none {a b : DataType} (ha : a.applied? = none)
    (hb : b.applied? = none) (h : a.render = b.render) : a.normal = b.normal := by
  cases a with
  | native s =>
    cases b with
    | native t => exact congrArg native (NativeType.word_injective h)
    | declared n => simp [normal, QualifiedName.native?_of_render (Eq.symm h)]
    | list | set | map | tuple | frozen => simp [applied?] at hb
  | declared m =>
    cases b with
    | native t => simp [normal, QualifiedName.native?_of_render h]
    | declared n =>
      have hnames : m.render ++ [] = n.render ++ [] := congrArg (· ++ []) h
      obtain ⟨hname, -⟩ :=
        QualifiedName.separates_render QualifiedName.ends_nil QualifiedName.ends_nil hnames
      exact congrArg (fun name => normal (declared name)) hname
    | list | set | map | tuple | frozen => simp [applied?] at hb
  | list | set | map | tuple | frozen => simp [applied?] at ha

theorem ends_nil : Ends [] :=
  fun _ h => by simp at h

theorem ends_comma (rest : Text) : Ends (", ".toList ++ rest) :=
  ends_cons (' ' :: rest) (by decide)

theorem ends_bracket (rest : Text) : Ends ('>' :: rest) :=
  ends_cons rest (by decide)

/-- Parameters that can each be told from what follows can be told from one another, and from there
being none. -/
theorem parameters_append_inj {ps qs : List DataType}
    (h : ∀ p ∈ ps, Text.SeparatesAt render normal Ends p) {r s : Text}
    (heq : Text.joined ", ".toList (ps.map render) ++ '>' :: r =
      Text.joined ", ".toList (qs.map render) ++ '>' :: s) :
    ps.map normal = qs.map normal ∧ r = s := by
  have hne : ∀ (p : DataType) (ps : List DataType) (t u : Text),
      Text.joined ", ".toList ((p :: ps).map render) ++ t ≠ '>' :: u := by
    intro p ps t u hp
    obtain ⟨c, rest, hrender, hinner⟩ := p.exists_render_eq_cons
    rw [List.map_cons, Text.joined_cons, hrender] at hp
    obtain rfl : c = '>' := (List.cons.inj hp).1
    exact absurd hinner (by decide)
  cases ps with
  | nil =>
    cases qs with
    | nil => exact ⟨rfl, (List.cons.inj heq).2⟩
    | cons q qs => exact absurd heq.symm (hne q qs _ _)
  | cons p ps =>
    cases qs with
    | nil => exact absurd heq (hne p ps _ _)
    | cons q qs =>
      obtain ⟨hnormal, hrest⟩ := Text.joined_append_inj ends_comma h (by simp) (by simp)
        (ends_bracket r) (ends_bracket s) (by simp) (by simp) heq
      exact ⟨hnormal, (List.cons.inj hrest).2⟩

/-- A type can be told from what follows it, up to declared types that are written like native
ones. -/
theorem separates_normal : Text.Separates render normal Ends := by
  intro a
  induction a using induction_on_parameters with
  | step a ih =>
    intro b r s hr hs h
    have hends : ∀ {t : Text}, Ends t → ∀ c, t.head? = some c → isInner c = false :=
      fun ht c hc => (ht c hc).1
    have hopen : ∀ t : Text, ∀ c, ('<' :: t).head? = some c → isInner c = false :=
      Text.forall_head?_cons (by decide)
    -- After the word of a type with parameters stands a bracket, which ends no other type.
    cases ha : a.applied? with
    | none =>
      have hainner := isInner_of_applied?_eq_none ha
      cases hb : b.applied? with
      | none =>
        obtain ⟨hrender, rfl⟩ := Text.append_inj_of_forall hainner
          (isInner_of_applied?_eq_none hb) (hends hr) (hends hs) h
        exact ⟨normal_eq_of_applied?_eq_none ha hb hrender, rfl⟩
      | some applied =>
        obtain ⟨word, qs⟩ := applied
        rw [render_append_of_applied? hb] at h
        obtain ⟨-, rfl⟩ := Text.append_inj_of_forall hainner (isInner_of_applied? hb) (hends hr)
          (hopen _) h
        exact absurd rfl (hr _ rfl).2
    | some applied =>
      obtain ⟨word, ps⟩ := applied
      rw [render_append_of_applied? ha] at h
      cases hb : b.applied? with
      | none =>
        obtain ⟨-, rfl⟩ := Text.append_inj_of_forall (isInner_of_applied? ha)
          (isInner_of_applied?_eq_none hb) (hopen _) (hends hs) h
        exact absurd rfl (hs _ rfl).2
      | some applied =>
        obtain ⟨other, qs⟩ := applied
        rw [render_append_of_applied? hb] at h
        obtain ⟨rfl, hbrackets⟩ := Text.append_inj_of_forall (isInner_of_applied? ha)
          (isInner_of_applied? hb) (hopen _) (hopen _) h
        obtain ⟨hnormal, rfl⟩ := parameters_append_inj (ih word ps ha) (List.cons.inj hbrackets).2
        have happlied : a.normal.applied? = b.normal.applied? := by
          rw [applied?_normal ha, applied?_normal hb, hnormal]
        exact ⟨eq_of_applied?_eq happlied (by simp [applied?_normal ha]), rfl⟩

theorem separates_render : Text.Separates render render Ends := by
  intro a b r s hr hs h
  obtain ⟨hnormal, hrest⟩ := separates_normal hr hs h
  exact ⟨by rw [← a.render_normal, ← b.render_normal, hnormal], hrest⟩

/-- Two types have one text exactly when they are the same, once native types have taken the place
of the declared ones that are written like them. -/
theorem render_eq_iff_normal_eq (a b : DataType) : a.render = b.render ↔ a.normal = b.normal := by
  constructor
  · intro h
    have hrest : a.render ++ [] = b.render ++ [] := congrArg (· ++ []) h
    exact (separates_normal ends_nil ends_nil hrest).1
  · intro h
    rw [← a.render_normal, ← b.render_normal, h]

/-- A declared type that is written like a native one, inside of a list. -/
example : (list (declared ⟨none, "int".toList, false, by decide, by decide⟩)).normal =
    list (native .int) := rfl

end DataType

end CqlDdl
