import Deadwood.CompilationUnit

namespace Deadwood

/-!
# References in compilation units

A unit refers to a name when one of its nodes has the name as a token and a
different name of its own.  Whether the name is one of the functions under
investigation is a separate question, and so is whether the unit can be read to
its end.  A worker answers all three at once.  The lemmas below take its answer
apart again: it has one exactly for readable units, and then it consists of the
functions that the unit refers to.
-/

private theorem mapM_eq_some_iff {α β : Type} {f : α → Option β} {items : List α}
    {values : List β} : items.mapM f = some values ↔ items.map f = values.map some := by
  induction items generalizing values with
  | nil => cases values <;> simp
  | cons item items ih =>
      have step : (item :: items).mapM f = some values ↔
          ∃ first, f item = some first ∧ ∃ others, items.mapM f = some others ∧
            first :: others = values := by
        rw [List.mapM_cons]
        simp [Option.bind_eq_some_iff]
      rw [step]
      constructor
      · rintro ⟨first, head, others, tail, rfl⟩
        rw [List.map_cons, List.map_cons, head, ih.mp tail]
      · intro same
        cases values with
        | nil => cases same
        | cons value values =>
            rw [List.map_cons, List.map_cons, List.cons.injEq] at same
            exact ⟨value, same.1, values, ih.mpr same.2, rfl⟩

private theorem mapM_isSome_iff {α β : Type} {f : α → Option β} {items : List α} :
    (items.mapM f).isSome = true ↔ ∀ item ∈ items, (f item).isSome = true := by
  induction items with
  | nil => simp
  | cons item items ih =>
      rw [List.mapM_cons, List.forall_mem_cons, ← ih]
      cases f item with
      | none => simp
      | some first => cases items.mapM f <;> simp

namespace Node

/-- The node has `name` as a token, and it is not the node's own name.  The node
of the file refers to nothing. -/
def Refers (node : Node) (name : String) : Prop :=
  node.kind ≠ .file ∧ name ≠ node.spelling ∧
  ∃ tokens, node.tokens = some tokens ∧
    ∃ token, some token ∈ tokens ∧ String.ofList (Text.trim token.toList) = name

/-- All tokens can be read, or they need not be. -/
def Readable (node : Node) : Prop :=
  node.kind ≠ .file → ∃ tokens, node.tokens = some tokens ∧ none ∉ tokens

theorem readTokens?_eq_some_iff {node : Node} {tokens : List String} :
    node.readTokens? = some tokens ↔ node.tokens = some (tokens.map some) := by
  rw [readTokens?, Option.bind_eq_some_iff]
  constructor
  · rintro ⟨raw, present, read⟩
    rw [present, ← mapM_eq_some_iff.mp read, List.map_id]
  · intro present
    exact ⟨_, present, mapM_eq_some_iff.mpr (List.map_id _)⟩

theorem mentions?_isSome_iff (functions : NameSet) {node : Node} :
    (node.mentions? functions).isSome = true ↔ node.Readable := by
  have complete (raw : List (Option String)) : (raw.mapM id).isSome = true ↔ none ∉ raw := by
    rw [mapM_isSome_iff]
    constructor
    · intro each missing
      cases each none missing
    · intro full token member
      cases token with
      | none => exact absurd member full
      | some text => rfl
  unfold mentions?
  cases kind : node.kind with
  | file => simp [Readable, kind]
  | construct grammar =>
      rw [Option.isSome_map, readTokens?]
      cases present : node.tokens with
      | none => simp [Readable, kind, present]
      | some raw => simp [Readable, kind, present, complete]

/-- What a readable node mentions are the functions that it refers to. -/
theorem mem_of_mentions? {functions : NameSet} {node : Node} {found : List String}
    {name : String} (read : node.mentions? functions = some found) :
    name ∈ found ↔ name ∈ functions ∧ node.Refers name := by
  unfold mentions? at read
  cases kind : node.kind with
  | file =>
      simp only [kind, Option.some.injEq] at read
      subst read
      simp [Refers, kind]
  | construct grammar =>
      simp only [kind, Option.map_eq_some_iff, readTokens?_eq_some_iff] at read
      rcases read with ⟨tokens, present, rfl⟩
      rw [List.mem_filter, decide_eq_true_eq, List.mem_map]
      constructor
      · rintro ⟨⟨token, member, same⟩, different, known⟩
        exact ⟨known, by simp [kind], different, _, present, token,
          List.mem_map_of_mem member, same⟩
      · rintro ⟨known, -, different, raw, spanned, token, member, same⟩
        rw [present, Option.some.injEq] at spanned
        subst spanned
        exact ⟨⟨token, by simpa using member, same⟩, different, known⟩

end Node

namespace CompilationUnit

def Refers (unit : CompilationUnit) (name : String) : Prop :=
  ∃ node ∈ unit.nodes, node.Refers name

/-- A worker on the unit meets no unreadable token. -/
def Readable (unit : CompilationUnit) : Prop :=
  ∀ node ∈ unit.nodes, node.Readable

theorem mentions?_isSome_iff (functions : NameSet) {unit : CompilationUnit} :
    (unit.mentions? functions).isSome = true ↔ unit.Readable := by
  rw [mentions?, Option.isSome_map, mapM_isSome_iff]
  exact forall₂_congr fun node _ => Node.mentions?_isSome_iff functions

instance (unit : CompilationUnit) : Decidable unit.Readable :=
  decidable_of_iff _ (mentions?_isSome_iff ∅)

/-- The number of units on which a worker meets an unreadable token. -/
def unreadable (units : List CompilationUnit) : Nat :=
  units.countP fun unit => ¬ unit.Readable

/-- What the worker of a unit sends back are the functions that the unit refers
to. -/
theorem mem_of_mentions? {functions found : NameSet} {unit : CompilationUnit} {name : String}
    (read : unit.mentions? functions = some found) :
    name ∈ found ↔ name ∈ functions ∧ unit.Refers name := by
  rw [mentions?, Option.map_eq_some_iff] at read
  rcases read with ⟨parts, each, rfl⟩
  have same := mapM_eq_some_iff.mp each
  rw [NameSet.mem_ofList, List.mem_flatten]
  constructor
  · rintro ⟨part, member, inside⟩
    have image : some part ∈ unit.nodes.map (Node.mentions? functions) := by
      rw [same]
      exact List.mem_map_of_mem member
    rcases List.mem_map.mp image with ⟨node, present, mentions⟩
    have both := (Node.mem_of_mentions? mentions).mp inside
    exact ⟨both.1, node, present, both.2⟩
  · rintro ⟨known, node, present, refers⟩
    have image : node.mentions? functions ∈ parts.map some := by
      rw [← same]
      exact List.mem_map_of_mem present
    rcases List.mem_map.mp image with ⟨part, member, mentions⟩
    exact ⟨part, member, (Node.mem_of_mentions? mentions.symm).mpr ⟨known, refers⟩⟩

end CompilationUnit
end Deadwood
