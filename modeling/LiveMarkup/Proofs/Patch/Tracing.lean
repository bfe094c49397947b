import LiveMarkup.Proofs.Patch.Identity
import LiveMarkup.Proofs.Patch.Stream

/-!
# Streams that go through nodes

The instructions of nodes go through them in document order.  For what becomes of elements with ids
all that counts is that these are opened with the keys of their ids, and that no other element is
opened with such a key.

Main definitions:

- `Instruction.Traces`: a stream goes through nodes.

Main results:

- `Instruction.Traces.run`: such a stream can be read, and leaves no element open.
- `Draft.traces_assign`: compiled nodes are of this kind.
-/

namespace LiveMarkup

/-- A stream goes through nodes in document order.  It opens an element with an id by the key of the
id, and any other element by a key that is not among the given ones; texts may be left out. -/
inductive Instruction.Traces (keys : List String) : List Node → List Instruction → Prop where
  | nil : Traces keys [] []
  | element {tag key : String} {attrs kept : List Attribute} {children rest : List Node}
      {inner others : List Instruction}
      (hauthored : ∀ own, Key.authored? attrs = some own → key = own)
      (hother : Key.authored? attrs = none → key ∉ keys) (hinner : Traces keys children inner)
      (hothers : Traces keys rest others) :
      Traces keys (.element tag attrs children :: rest)
        (.openElement tag key kept :: (inner ++ .closeElement tag :: others))
  | text {data : String} {rest : List Node} {others : List Instruction}
      (hothers : Traces keys rest others) :
      Traces keys (.text data :: rest) (.text data :: others)
  | skipped {data : String} {rest : List Node} {others : List Instruction}
      (hothers : Traces keys rest others) : Traces keys (.text data :: rest) others

/-- A stream that goes through nodes can be read after whatever is done before, and closes every
element that it opens. -/
theorem Instruction.Traces.run {keys : List String} {ns : List Node} {stream : List Instruction}
    (h : Traces keys ns stream) :
    ∃ forest, ∀ p : Progress, p.run stream = some ⟨p.opened, p.done ++ forest⟩ := by
  induction h with
  | nil => exact ⟨[], fun p => by rw [List.append_nil]; rfl⟩
  | @element tag key attrs kept _ _ inner others _ _ _ _ ihinner ihothers =>
    obtain ⟨below, hbelow⟩ := ihinner
    obtain ⟨after, hafter⟩ := ihothers
    refine ⟨.element tag (some key) kept below :: after, fun p => ?_⟩
    rw [Progress.run_enclosed hbelow, hafter, List.append_assoc, List.singleton_append]
  | @text data _ _ _ ihothers =>
    obtain ⟨after, hafter⟩ := ihothers
    refine ⟨.text data :: after, fun p => ?_⟩
    rw [Progress.run_cons, Progress.step, Option.bind_some, hafter, List.append_assoc,
      List.singleton_append]
  | skipped _ ihothers => exact ihothers

namespace Draft

variable {config : PatchConfig} {keys : List String}

/-- An element without an id is opened by a key that no id has. -/
theorem getD_knownKey_not_mem {supply : Nat → String}
    (hkeys : ∀ key ∈ keys, ∃ id, key = Key.authored id)
    (hsupply : config.identity = .generated → ∀ n, supply n ∉ keys) (id : String)
    (path : List Nat) (position n : Nat) :
    (knownKey config ⟨Key.authored id, path⟩ position none).getD (supply n) ∉ keys := by
  cases hidentity : config.identity with
  | generated =>
    simp only [knownKey, hidentity, Option.getD_none]
    exact hsupply hidentity n
  | structural =>
    simp only [knownKey, hidentity, Option.getD_some]
    intro hmem
    obtain ⟨own, heq⟩ := hkeys _ hmem
    exact Key.authored_ne_structural own id _ heq.symm

/-- What is in an element is placed by the id of that element, or by the nearest id above. -/
theorem exists_child_eq (id : String) (path : List Nat) (position : Nat)
    (attrs : List Attribute) : ∃ id' path',
      Place.child ⟨Key.authored id, path⟩ position (Key.authored? attrs) =
        ⟨Key.authored id', path'⟩ := by
  rw [Key.authored?_eq]
  cases Attribute.authoredId? attrs with
  | some own => exact ⟨own, [], rfl⟩
  | none => exact ⟨id, path ++ [position], rfl⟩

/-- Compiled nodes go through the nodes, where no generated key is that of an id. -/
theorem traces_assign {supply : Nat → String} (hkeys : ∀ key ∈ keys, ∃ id, key = Key.authored id)
    (hsupply : config.identity = .generated → ∀ n, supply n ∉ keys) {place : Place}
    {position : Nat} {top : Bool} {ns : List Node} {drafts : List Draft}
    (h : Drafted config place position top ns drafts) :
    ∀ (n : Nat) {id : String} {path : List Nat}, place = ⟨Key.authored id, path⟩ →
      Instruction.Traces keys ns (assign supply n drafts) := by
  induction h with
  | nil =>
    intro n id path _
    exact .nil
  | @element place position top tag attrs children rest inner others _ _ ihinner ihothers =>
    rintro n id path rfl
    obtain ⟨m, m', hassign⟩ := assign_element supply n tag
      (knownKey config ⟨Key.authored id, path⟩ position (Key.authored? attrs))
      (keptAttributes config attrs) inner others
    obtain ⟨id', path', hchild⟩ := exists_child_eq id path position attrs
    rw [hassign]
    refine .element ?_ ?_ (ihinner m hchild) (ihothers m' rfl)
    · intro own hown
      rw [hown, knownKey, Option.getD_some]
    · intro hnone
      rw [hnone]
      exact getD_knownKey_not_mem hkeys hsupply id path position n
  | @text place position top data rest others _ ihothers =>
    intro n id path hplace
    rw [assign_append]
    split
    · exact .skipped (ihothers _ hplace)
    · exact .text (ihothers _ hplace)

end Draft
end LiveMarkup
