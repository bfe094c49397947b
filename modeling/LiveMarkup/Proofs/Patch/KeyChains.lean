import LiveMarkup.Proofs.Dom.Chains
import LiveMarkup.Proofs.Patch.Denotation
import LiveMarkup.Proofs.Patch.Identity
import Mathlib.Data.List.Count

/-!
# Chains of compiled nodes

Under structural identity the chain of an element can be told from the nodes alone, and the
instructions denote a forest with just these chains.  Where no id is used twice all chains are
different, and siblings that have ids can change places without any chain being lost.

Main definitions:

- `Node.isPlain`: a node without comments and directives, which can always be compiled.
- `Node.chainsAll`, `Fragment.chains`: the chains of the elements among nodes and in a fragment.
- `Node.Rearranged`: nodes in which siblings with ids have changed places.

Main results:

- `PatchCompiler.exists_compileStack`: plain fragments are compiled to instructions that denote a
  forest with their chains.
- `Fragment.nodup_chains`: different ids make different chains.
- `Node.Rearranged.perm_chainsAll`: the chains stay the same when siblings change places.
-/

namespace LiveMarkup

/-! ## Plain nodes -/

namespace Node

mutual

/-- Whether neither a node nor anything below it is a comment or a directive. -/
def isPlain : Node → Bool
  | .element _ _ children => isPlainAll children
  | .text _ => true
  | .comment _ => false
  | .directive _ => false

/-- Whether neither among nodes nor below them there is a comment or a directive. -/
def isPlainAll : List Node → Bool
  | [] => true
  | n :: rest => isPlain n && isPlainAll rest

end

end Node

namespace Draft

mutual

theorem exists_ofNode (config : PatchConfig) (place : Place) (position : Nat) (top : Bool) :
    ∀ n : Node, n.isPlain = true → ∃ drafts, ofNode config place position top n = .ok drafts
  | .element tag attrs children, hplain => by
    obtain ⟨inner, hinner⟩ :=
      exists_ofNodes config (place.child position (Key.authored? attrs)) 0 false children hplain
    rw [ofNode]
    simp only [hinner]
    exact ⟨_, rfl⟩
  | .text _, _ => ⟨_, rfl⟩

/-- Plain nodes have a draft. -/
theorem exists_ofNodes (config : PatchConfig) (place : Place) (position : Nat) (top : Bool) :
    ∀ ns : List Node, Node.isPlainAll ns = true →
      ∃ drafts, ofNodes config place position top ns = .ok drafts
  | [], _ => ⟨_, rfl⟩
  | n :: rest, hplain => by
    obtain ⟨hn, hrest⟩ := (Bool.and_eq_true _ _).mp hplain
    obtain ⟨first, hfirst⟩ := exists_ofNode config place position top n hn
    obtain ⟨others, hothers⟩ := exists_ofNodes config place
      (if n.kind = .tag then position + 1 else position) top rest hrest
    rw [ofNodes]
    simp only [hfirst, hothers]
    exact ⟨_, rfl⟩

end

end Draft

/-! ## Chains of nodes -/

namespace Node

mutual

/-- The chains of the elements among a node and everything below it, in document order, given its
place and position and the labels above. -/
def chains (place : Place) (position : Nat) (above : List Label) : Node → List (List Label)
  | .element tag attrs children =>
    let authored := Key.authored? attrs
    let own := above ++ [⟨tag, some (authored.getD (place.key position))⟩]
    own :: chainsAll (place.child position authored) 0 own children
  | .text _ => []
  | .comment _ => []
  | .directive _ => []

/-- The chains of the elements among nodes and below them, in document order, given the position of
the first. -/
def chainsAll (place : Place) (position : Nat) (above : List Label) :
    List Node → List (List Label)
  | [] => []
  | n :: rest =>
    chains place position above n ++
      chainsAll place (if n.kind = .tag then position + 1 else position) above rest

end

end Node

/-- The chains of the elements in a fragment, in document order. -/
def Fragment.chains (f : Fragment) : List (List Label) :=
  Node.chainsAll {} 0 [] (f.forest Fragment.root)

namespace Draft

/-- Under structural identity, compiled nodes stand for trees with the chains of the nodes. -/
theorem Denoted.chainsAll {config : PatchConfig} (hconfig : config.identity = .structural)
    {place : Place} {position : Nat} {top : Bool} {ns : List Node} {forest : List LiveNode}
    (h : Denoted config place position top ns forest) (above : List Label) :
    LiveNode.chainsAll above forest = Node.chainsAll place position above ns := by
  induction h generalizing above with
  | nil => rfl
  | @element place position top tag key attrs children rest below after hkey _ _ ihbelow ihafter =>
    have hknown := knownKey_of_structural hconfig place position (Key.authored? attrs)
    rw [LiveNode.chainsAll, LiveNode.chains, hkey _ hknown, ihbelow, ihafter]
    rfl
  | text _ ihafter =>
    split
    · exact ihafter above
    · exact ihafter above

end Draft

/-- Under structural identity a plain fragment in which no id is used twice is compiled, to
instructions that denote a forest with the chains of the fragment and use no key twice. -/
theorem PatchCompiler.exists_compileStack {c : PatchCompiler}
    (hconfig : c.config.identity = .structural) {source : String} {f : Fragment}
    (hparse : c.parser source = .ok f)
    (hplain : Node.isPlainAll (f.forest Fragment.root) = true)
    (hids : (Node.authoredIdsAll (f.forest Fragment.root)).Nodup) :
    ∃ stream forest, (c.compileStack source).1 = .ok stream ∧
      (stream.filterMap Instruction.key?).Nodup ∧
      Instruction.forest? stream = some forest ∧ LiveNode.chainsAll [] forest = f.chains := by
  obtain ⟨drafts, hdrafts⟩ := Draft.exists_ofNodes c.config {} 0 true _ hplain
  have hdraft : f.draft c.config = .ok drafts := hdrafts
  obtain ⟨forest, hforest, hdenoted⟩ := Draft.denoted_of_draft c.supply c.drawn hdraft
  refine ⟨Draft.assign c.supply c.drawn drafts, forest, ?_,
    Draft.nodup_filterMap_key?_assign hconfig c.supply c.drawn hdraft hids, hforest,
    hdenoted.chainsAll hconfig []⟩
  simp only [compileStack, hparse, hdraft]

/-! ## Different chains -/

open Key (Origin)

namespace Node

mutual

/-- Each chain ends with the key of its element. -/
theorem map_key_chains {id : String} {path : List Nat} {position : Nat} {above : List Label} :
    ∀ n : Node,
      (chains ⟨Key.authored id, path⟩ position above n).map
          (fun chain => chain.getLast?.bind (·.key)) =
        (origins id path position n).map fun o => some o.key
  | .element _ attrs children => by
    rw [chains, origins, Key.authored?_eq]
    cases Attribute.authoredId? attrs with
    | some own =>
      rw [List.map_cons, List.map_cons]
      exact congrArg₂ List.cons (by simp [Origin.key]) (map_key_chainsAll children)
    | none =>
      rw [List.map_cons, List.map_cons]
      exact congrArg₂ List.cons (by simp [Origin.key, Place.key]) (map_key_chainsAll children)
  | .text _ => rfl
  | .comment _ => rfl
  | .directive _ => rfl

theorem map_key_chainsAll {id : String} {path : List Nat} {position : Nat} {above : List Label} :
    ∀ ns : List Node,
      (chainsAll ⟨Key.authored id, path⟩ position above ns).map
          (fun chain => chain.getLast?.bind (·.key)) =
        (originsAll id path position ns).map fun o => some o.key
  | [] => rfl
  | n :: rest => by
    rw [chainsAll, originsAll, List.map_append, List.map_append, map_key_chains n,
      map_key_chainsAll rest]

end

end Node

/-- Where no id is used twice, the chains of a fragment are different. -/
theorem Fragment.nodup_chains {f : Fragment}
    (hids : (Node.authoredIdsAll (f.forest Fragment.root)).Nodup) : f.chains.Nodup := by
  have horigins : (Node.originsAll "" [] 0 (f.forest Fragment.root)).Nodup :=
    Node.nodup_originsAll _ hids (Node.empty_not_mem_authoredIdsAll _)
  have hkeys := horigins.map ((Option.some_injective String).comp Origin.key_injective)
  refine List.Nodup.of_map (fun chain => chain.getLast?.bind (·.key)) ?_
  rw [Fragment.chains, show ({} : Place) = ⟨Key.authored "", []⟩ from rfl, Node.map_key_chainsAll]
  exact hkeys

/-! ## Siblings that change places -/

namespace Node

/-- Whether a node is an element with an id. -/
def isAuthored : Node → Bool
  | .element _ attrs _ => (Key.authored? attrs).isSome
  | _ => false

/-- Somewhere among nodes or below them, siblings with ids have changed places. -/
inductive Rearranged : List Node → List Node → Prop where
  | refl (ns : List Node) : Rearranged ns ns
  | swap (before middle after : List Node) {a b : Node} (ha : a.isAuthored = true)
      (hb : b.isAuthored = true) :
      Rearranged (before ++ a :: (middle ++ b :: after)) (before ++ b :: (middle ++ a :: after))
  | inside (before after : List Node) (tag : String) (attrs : List Attribute)
      {children children' : List Node} (h : Rearranged children children') :
      Rearranged (before ++ .element tag attrs children :: after)
        (before ++ .element tag attrs children' :: after)
  | trans {first second third : List Node} (h₁ : Rearranged first second)
      (h₂ : Rearranged second third) : Rearranged first third

/-- A row of siblings with ids may be rearranged as one likes. -/
theorem rearranged_of_perm {ns ns' : List Node} (hperm : ns.Perm ns')
    (hns : ∀ n ∈ ns, n.isAuthored = true) (before after : List Node) :
    Rearranged (before ++ (ns ++ after)) (before ++ (ns' ++ after)) := by
  induction hperm generalizing before after with
  | nil => exact .refl _
  | cons n _ ih =>
    have hrest := ih (fun m hm => hns m (List.mem_cons_of_mem n hm)) (before ++ [n]) after
    simpa using hrest
  | swap a b rest =>
    have ha := hns a (List.mem_cons_of_mem b List.mem_cons_self)
    exact .swap before [] (rest ++ after) (hns b List.mem_cons_self) ha
  | trans hfirst _ ih₁ ih₂ =>
    exact (ih₁ hns before after).trans
      (ih₂ (fun n hn => hns n (hfirst.mem_iff.mpr hn)) before after)

theorem chainsAll_append (place : Place) (position : Nat) (above : List Label)
    (first second : List Node) :
    chainsAll place position above (first ++ second) =
      chainsAll place position above first ++
        chainsAll place (position + first.countP fun n => n.kind = .tag) above second := by
  induction first generalizing position with
  | nil => rfl
  | cons n rest ih =>
    rw [List.cons_append, chainsAll, chainsAll, ih, List.append_assoc, List.countP_cons]
    by_cases hn : n.kind = .tag
    · simp [hn, Nat.add_assoc, Nat.add_comm 1]
    · simp [hn]

theorem kind_of_isAuthored {n : Node} (h : n.isAuthored = true) : n.kind = .tag := by
  cases n with
  | element tag attrs children => rfl
  | text data => cases h
  | comment data => cases h
  | directive data => cases h

/-- The chains at and below an element with an id do not depend on where it stands among its
siblings. -/
theorem chains_of_isAuthored {n : Node} (h : n.isAuthored = true) (place : Place)
    (position position' : Nat) (above : List Label) :
    chains place position above n = chains place position' above n := by
  cases n with
  | element tag attrs children =>
    obtain ⟨key, hkey⟩ := Option.isSome_iff_exists.mp h
    simp only [chains, hkey]
    rfl
  | text data => cases h
  | comment data => cases h
  | directive data => cases h

/-- The chains stay the same when siblings with ids change places. -/
theorem Rearranged.perm_chainsAll {ns ns' : List Node} (h : Rearranged ns ns') :
    ∀ (place : Place) (position : Nat) (above : List Label),
      (chainsAll place position above ns).Perm (chainsAll place position above ns') := by
  induction h with
  | refl ns => exact fun _ _ _ => List.Perm.refl _
  | @swap before middle after a b ha hb =>
    intro place position above
    simp only [chainsAll_append, chainsAll, if_pos (kind_of_isAuthored ha),
      if_pos (kind_of_isAuthored hb)]
    generalize position + before.countP (fun n => n.kind = .tag) = p
    generalize middle.countP (fun n => n.kind = .tag) = m
    rw [chains_of_isAuthored ha place (p + 1 + m) p, chains_of_isAuthored hb place (p + 1 + m) p]
    refine List.perm_iff_count.mpr fun chain => ?_
    simp only [List.count_append]
    omega
  | inside before after tag attrs _ ih =>
    intro place position above
    rw [chainsAll_append, chainsAll_append, chainsAll, chainsAll, chains, chains]
    exact ((ih _ 0 _).cons _).append_right _ |>.append_left _
  | trans _ _ ih₁ ih₂ =>
    exact fun place position above => (ih₁ place position above).trans (ih₂ place position above)

end Node
end LiveMarkup
