import LiveMarkup.Proofs.Dom.Chains
import LiveMarkup.Proofs.Dom.Import
import LiveMarkup.Proofs.Patch.Denotation
import LiveMarkup.Proofs.Patch.Identity

/-!
# Importing and compiling agree

Nodes can be imported, or compiled to instructions that denote a forest.  Both ways lead to the same
trees, except that what has no place in a patch is imported all the same, and that only compilation
gives keys to elements without an id.

Main definitions:

- `LiveNode.shown`: trees without what has no place in a patch.
- `LiveNode.Rekeyed`: forests that differ in keys only, where the first has none.

Main results:

- `Draft.Denoted.rekeyed`: compiled nodes stand for the trees that the nodes are imported as.
- `Node.key_mem_of_mem_chainsAll_liveAll`: imported elements have the keys of ids only.
-/

namespace LiveMarkup

namespace LiveNode

/-- Trees without what has no place in a patch: the texts at the top, empty texts and, if they are
dropped, attributes with an empty value. -/
def shown (dropEmpty top : Bool) : List LiveNode → List LiveNode
  | [] => []
  | .element tag key attrs children :: rest =>
    .element tag key (Node.prunedAttributes dropEmpty attrs) (shown dropEmpty false children) ::
      shown dropEmpty top rest
  | .text content :: rest =>
    (if top || content = "" then [] else [.text content]) ++ shown dropEmpty top rest
  | .comment content :: rest => .comment content :: shown dropEmpty top rest

/-- The second forest is the first, but for keys that elements of the first lack. -/
inductive Rekeyed : List LiveNode → List LiveNode → Prop where
  | nil : Rekeyed [] []
  | element {tag : String} {key key' : Option String} {attrs : List Attribute}
      {below below' after after' : List LiveNode} (hkey : ∀ k, key = some k → key' = some k)
      (hbelow : Rekeyed below below') (hafter : Rekeyed after after') :
      Rekeyed (.element tag key attrs below :: after) (.element tag key' attrs below' :: after')
  | text {content : String} {after after' : List LiveNode} (hafter : Rekeyed after after') :
      Rekeyed (.text content :: after) (.text content :: after')
  | comment {content : String} {after after' : List LiveNode} (hafter : Rekeyed after after') :
      Rekeyed (.comment content :: after) (.comment content :: after')

end LiveNode

/-- Compiled nodes stand for the trees that the nodes are imported as, without what has no place in
a patch, and with keys where these have none. -/
theorem Draft.Denoted.rekeyed {config : PatchConfig} {place : Place} {position : Nat} {top : Bool}
    {ns : List Node} {forest : List LiveNode} (h : Denoted config place position top ns forest) :
    LiveNode.Rekeyed (LiveNode.shown config.dropEmptyAttributes top (Node.liveAll ns)) forest := by
  induction h with
  | nil =>
    rw [Node.liveAll, LiveNode.shown]
    exact .nil
  | @element place position top tag key attrs children rest below after hkey _ _ ihbelow ihafter =>
    rw [Node.liveAll, Node.live?, Option.toList_some, List.singleton_append, LiveNode.shown]
    refine .element ?_ ihbelow ihafter
    intro own hown
    rw [hkey own (by rw [hown, knownKey])]
  | @text place position top data rest after _ ihafter =>
    rw [Node.liveAll, Node.live?, Option.toList_some, List.singleton_append, LiveNode.shown]
    split
    · exact ihafter
    · exact .text ihafter

/-! ## Keys of imported elements -/

/-- The key of an element by its attributes is that of its id. -/
theorem Key.mem_of_authored?_eq_some {attrs : List Attribute} {key : String}
    (h : Key.authored? attrs = some key) :
    key ∈ (Attribute.authoredId? attrs).toList.map Key.authored := by
  rw [Key.authored?_eq] at h
  obtain ⟨id, hid, rfl⟩ := Option.map_eq_some_iff.mp h
  exact List.mem_map_of_mem (Option.mem_toList.mpr hid)

theorem LiveNode.chainsAll_append (above : List Label) (first second : List LiveNode) :
    chainsAll above (first ++ second) = chainsAll above first ++ chainsAll above second := by
  induction first with
  | nil => rfl
  | cons n rest ih => rw [List.cons_append, chainsAll, chainsAll, ih, List.append_assoc]

namespace Node

mutual

/-- On the chain of an imported element, the labels below those above the node have the keys of ids
at and below the node, or none. -/
theorem key_mem_of_mem_chains_live? {above chain : List Label} {label : Label} {key : String}
    (hlabel : label ∈ chain) (hkey : label.key = some key) :
    ∀ n : Node, chain ∈ n.live?.elim [] (LiveNode.chains above) →
      label ∈ above ∨ key ∈ n.authoredIds.map Key.authored
  | .element tag attrs children, hchain => by
    rw [live?, Option.elim_some, LiveNode.chains] at hchain
    rw [authoredIds, List.map_append, List.mem_append]
    have hown : label ∈ above ++ [⟨tag, Key.authored? attrs⟩] → label ∈ above ∨
        key ∈ (Attribute.authoredId? attrs).toList.map Key.authored := by
      intro hmem
      rcases List.mem_append.mp hmem with habove | hself
      · exact Or.inl habove
      · rw [List.mem_singleton.mp hself] at hkey
        exact Or.inr (Key.mem_of_authored?_eq_some hkey)
    rcases List.mem_cons.mp hchain with rfl | hchain
    · exact (hown hlabel).imp_right Or.inl
    · rcases key_mem_of_mem_chainsAll_liveAll hlabel hkey children hchain with hmem | hmem
      · exact (hown hmem).imp_right Or.inl
      · exact Or.inr (Or.inr hmem)
  | .text _, hchain => absurd hchain List.not_mem_nil
  | .comment _, hchain => absurd hchain List.not_mem_nil
  | .directive _, hchain => absurd hchain List.not_mem_nil

/-- On the chain of an imported element, the labels below those above the nodes have the keys of ids
among the nodes and below them, or none. -/
theorem key_mem_of_mem_chainsAll_liveAll {above chain : List Label} {label : Label} {key : String}
    (hlabel : label ∈ chain) (hkey : label.key = some key) :
    ∀ ns : List Node, chain ∈ LiveNode.chainsAll above (liveAll ns) →
      label ∈ above ∨ key ∈ (authoredIdsAll ns).map Key.authored
  | [], hchain => absurd hchain List.not_mem_nil
  | n :: rest, hchain => by
    rw [liveAll, LiveNode.chainsAll_append, List.mem_append] at hchain
    rw [authoredIdsAll, List.map_append, List.mem_append]
    rcases hchain with hchain | hchain
    · have hfirst : chain ∈ n.live?.elim [] (LiveNode.chains above) := by
        cases hlive : n.live? with
        | none => simp [hlive, LiveNode.chainsAll] at hchain
        | some tree => simpa [hlive, LiveNode.chainsAll] using hchain
      exact (key_mem_of_mem_chains_live? hlabel hkey n hfirst).imp_right Or.inl
    · exact (key_mem_of_mem_chainsAll_liveAll hlabel hkey rest hchain).imp_right Or.inr

end

end Node
end LiveMarkup
