import CqlDdl.Statement

/-! The options of statements: those on the top, and those inside the maps that some of them hold,
in written order. -/

namespace CqlDdl

/-- The entries of a map as the value of an option, and none for any other value. -/
def OptionValue.entries : OptionValue → OptionMap
  | .map entries => entries
  | .null | .absent | .scalar _ => []

/-- The entries of the maps that options hold, in written order. -/
def OptionMap.nested (options : OptionMap) : OptionMap :=
  options.flatMap fun entry => entry.2.entries

theorem OptionMap.nested_cons (entry : OptionKey × OptionValue) (rest : OptionMap) :
    nested (entry :: rest) = entry.2.entries ++ nested rest := rfl

theorem OptionMap.nested_append (options more : OptionMap) :
    nested (options ++ more) = options.nested ++ more.nested :=
  List.flatMap_append

theorem OptionMap.names_append (options more : OptionMap) :
    names (options ++ more) = options.names ++ more.names :=
  List.map_append

theorem OptionMap.has_eq_true_iff {options : OptionMap} {key : OptionKey} :
    options.has key = true ↔ key.name ∈ options.names := by
  simp only [has, OptionKey.sameName, names, List.any_eq_true, List.mem_map, beq_iff_eq]

/-- The options that a statement was given. Statements on indexes have none of this kind, and those
on user types and those that drop something have none at all. -/
def Statement.options : Statement → OptionMap
  | .createKeyspace s => s.options
  | .alterKeyspace s => s.options
  | .createTable s => s.options
  | .alterTable s => s.options
  | .dropKeyspace _ | .dropTable _ | .createIndex _ | .dropIndex _ | .createUserType _
  | .alterUserType _ | .dropUserType _ => []

end CqlDdl
