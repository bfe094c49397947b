import LiveMarkup.Proofs.Markup.Grafting
import LiveMarkup.Proofs.Patch.Drafts
import LiveMarkup.Proofs.Patch.Stream

/-!
# What compiled nodes denote

The instructions of a fragment denote its nodes, without what has no place in a patch: the texts at
the top, empty texts and, if they are dropped, attributes with an empty value.  The keys make no
difference to that.

Main definitions:

- `Node.pruned`, `Node.shown`: nodes without what has no place in a patch.
- `Fragment.pruned`: a fragment without it.
- `Draft.Denoted`: the trees that compiled nodes stand for.

Main results:

- `Fragment.markup_pruned`: the markup of such a fragment.
- `Draft.run_assign`: compiled nodes are read as these trees, after whatever is done before.
- `Draft.Denoted.toNodes`: without their keys, the trees are the nodes that have a place in a patch.
- `Draft.forest?_assign`: the instructions of a fragment denote a forest, which is that fragment.
-/

namespace LiveMarkup

namespace Node

/-- Whether a node is a text. -/
def isText : Node → Bool
  | .text _ => true
  | _ => false

/-- Whether a node is an empty text. -/
def isEmptyText : Node → Bool
  | .text data => data = ""
  | _ => false

/-- Attributes without those that have an empty value, if these are dropped. -/
def prunedAttributes (dropEmpty : Bool) (attrs : List Attribute) : List Attribute :=
  if dropEmpty then attrs.filter fun a => a.value != "" else attrs

mutual

/-- A node without the empty texts below it and, if they are dropped, the attributes with an empty
value. -/
def pruned (dropEmpty : Bool) : Node → Node
  | .element tag attrs children =>
    .element tag (prunedAttributes dropEmpty attrs) (prunedAll dropEmpty children)
  | .text data => .text data
  | .comment data => .comment data
  | .directive data => .directive data

/-- Nodes without the empty texts among them and below them and, if they are dropped, the attributes
with an empty value. -/
def prunedAll (dropEmpty : Bool) : List Node → List Node
  | [] => []
  | n :: rest =>
    if isEmptyText n then prunedAll dropEmpty rest
    else pruned dropEmpty n :: prunedAll dropEmpty rest

end

/-- Nodes without what has no place in a patch, where texts at the top have none either. -/
def shown (dropEmpty top : Bool) (ns : List Node) : List Node :=
  prunedAll dropEmpty (if top then ns.filter fun n => !n.isText else ns)

theorem shown_nil (dropEmpty top : Bool) : shown dropEmpty top [] = [] := by
  cases top <;> rfl

theorem shown_element (dropEmpty top : Bool) (tag : String) (attrs : List Attribute)
    (children rest : List Node) :
    shown dropEmpty top (.element tag attrs children :: rest) =
      .element tag (prunedAttributes dropEmpty attrs) (shown dropEmpty false children) ::
        shown dropEmpty top rest := by
  cases top <;> rfl

theorem shown_text (dropEmpty top : Bool) (data : String) (rest : List Node) :
    shown dropEmpty top (.text data :: rest) =
      (if top || data = "" then [] else [.text data]) ++ shown dropEmpty top rest := by
  cases top with
  | true => rfl
  | false =>
    by_cases hdata : data = ""
    · simp [shown, prunedAll, isEmptyText, hdata]
    · simp [shown, prunedAll, isEmptyText, pruned, hdata]

/-- Pruning attributes makes no node a text. -/
theorem isText_pruned (dropEmpty : Bool) (n : Node) : (pruned dropEmpty n).isText = n.isText := by
  cases n <;> rfl

/-- Where there are no texts, pruning makes none. -/
theorem not_isText_of_mem_prunedAll {dropEmpty : Bool} {ns : List Node}
    (hns : ∀ n ∈ ns, n.isText = false) :
    ∀ n ∈ prunedAll dropEmpty ns, n.isText = false := by
  induction ns with
  | nil =>
    intro n hn
    cases hn
  | cons m rest ih =>
    intro n hn
    have hrest := ih fun n hn => hns n (List.mem_cons_of_mem m hn)
    rw [prunedAll] at hn
    split at hn
    · exact hrest n hn
    · rcases List.mem_cons.mp hn with rfl | hn
      · rw [isText_pruned]
        exact hns m List.mem_cons_self
      · exact hrest n hn

/-- No text is shown at the top. -/
theorem not_isText_of_mem_shown {dropEmpty : Bool} {ns : List Node} :
    ∀ n ∈ shown dropEmpty true ns, n.isText = false := by
  refine not_isText_of_mem_prunedAll ?_
  intro n hn
  simpa using (List.mem_filter.mp hn).2

/-- Only texts are written differently in raw-text elements. -/
theorem markupAll_of_not_isText (raw raw' : Bool) {ns : List Node}
    (hns : ∀ n ∈ ns, n.isText = false) : markupAll raw ns = markupAll raw' ns := by
  induction ns with
  | nil => rfl
  | cons n rest ih =>
    rw [markupAll, markupAll, ih fun n hn => hns n (List.mem_cons_of_mem _ hn)]
    cases n with
    | text data => cases hns _ List.mem_cons_self
    | element tag attrs children => rfl
    | comment data => rfl
    | directive data => rfl

end Node

/-- A fragment without its texts at the top, without its empty texts and, if they are dropped,
without its attributes with an empty value. -/
def Fragment.pruned (dropEmpty : Bool) (f : Fragment) : Fragment :=
  Fragment.ofNodes (Node.shown dropEmpty true (f.forest Fragment.root))

/-- As it has no texts at the top, a pruned fragment reads the same inside any element. -/
theorem Fragment.markup_pruned (raw dropEmpty : Bool) (f : Fragment) :
    (f.pruned dropEmpty).markup =
      Node.markupAll raw (Node.shown dropEmpty true (f.forest Fragment.root)) := by
  rw [Fragment.pruned, Fragment.markup_ofNodes]
  exact Node.markupAll_of_not_isText false raw Node.not_isText_of_mem_shown

namespace Draft

/-- The trees that compiled nodes stand for.  Each element has the key that is known for it, or else
any key, and the attributes that instructions keep. -/
inductive Denoted (config : PatchConfig) :
    Place → Nat → Bool → List Node → List LiveNode → Prop where
  | nil {place : Place} {position : Nat} {top : Bool} : Denoted config place position top [] []
  | element {place : Place} {position : Nat} {top : Bool} {tag key : String}
      {attrs : List Attribute} {children rest : List Node} {below after : List LiveNode}
      (hkey : ∀ known, knownKey config place position (Key.authored? attrs) = some known →
        key = known)
      (hbelow : Denoted config (place.child position (Key.authored? attrs)) 0 false children below)
      (hafter : Denoted config place (position + 1) top rest after) :
      Denoted config place position top (.element tag attrs children :: rest)
        (.element tag (some key) (keptAttributes config attrs) below :: after)
  | text {place : Place} {position : Nat} {top : Bool} {data : String} {rest : List Node}
      {after : List LiveNode} (hafter : Denoted config place position top rest after) :
      Denoted config place position top (.text data :: rest)
        ((if top || data = "" then [] else [.text data]) ++ after)

/-- Without their keys, these trees are the nodes themselves, but for what has no place in a
patch. -/
theorem Denoted.toNodes {config : PatchConfig} {place : Place} {position : Nat} {top : Bool}
    {ns : List Node} {forest : List LiveNode} (h : Denoted config place position top ns forest) :
    LiveNode.toNodes forest = Node.shown config.dropEmptyAttributes top ns := by
  induction h with
  | nil => exact (Node.shown_nil _ _).symm
  | element _ _ _ ihbelow ihafter =>
    rw [LiveNode.toNodes, LiveNode.toNode, ihbelow, ihafter, Node.shown_element]
    rfl
  | text _ ihafter =>
    rw [Node.shown_text]
    split
    · exact ihafter
    · rw [List.singleton_append, LiveNode.toNodes, LiveNode.toNode, ihafter]
      rfl

/-- Compiled nodes are read as the trees that they stand for, after whatever is done before. -/
theorem run_assign {config : PatchConfig} (supply : Nat → String) {place : Place} {position : Nat}
    {top : Bool} {ns : List Node} {drafts : List Draft}
    (h : Drafted config place position top ns drafts) (n : Nat) :
    ∃ forest, (∀ p : Progress,
        p.run (assign supply n drafts) = some ⟨p.opened, p.done ++ forest⟩) ∧
      Denoted config place position top ns forest := by
  induction h generalizing n with
  | nil =>
    refine ⟨[], ?_, .nil⟩
    intro p
    rw [List.append_nil]
    rfl
  | @element place position top tag attrs children rest inner others _ _ ihinner ihothers =>
    obtain ⟨m, m', hassign⟩ := assign_element supply n tag
      (knownKey config place position (Key.authored? attrs)) (keptAttributes config attrs) inner
      others
    obtain ⟨below, hbelow, hdenoted⟩ := ihinner m
    obtain ⟨after, hafter, hdenoted'⟩ := ihothers m'
    generalize hkey : Option.getD _ (supply n) = key at hassign
    refine ⟨.element tag (some key) (keptAttributes config attrs) below :: after, ?_,
      .element ?_ hdenoted hdenoted'⟩
    · intro p
      rw [hassign, Progress.run_enclosed hbelow, hafter, List.append_assoc, List.singleton_append]
    · intro known hknown
      rw [← hkey, hknown, Option.getD_some]
  | @text place position top data rest others _ ihothers =>
    obtain ⟨after, hafter, hdenoted⟩ := ihothers n
    refine ⟨_, ?_, .text hdenoted⟩
    intro p
    split
    · exact hafter p
    · rw [List.singleton_append, assign, Progress.run_cons, Progress.step, Option.bind_some,
        hafter, List.append_assoc]

/-- The instructions of a fragment denote the trees that its nodes stand for. -/
theorem denoted_of_draft {config : PatchConfig} (supply : Nat → String) (n : Nat) {f : Fragment}
    {drafts : List Draft} (h : f.draft config = .ok drafts) :
    ∃ forest, Instruction.forest? (assign supply n drafts) = some forest ∧
      Denoted config {} 0 true (f.forest Fragment.root) forest := by
  obtain ⟨forest, hrun, hdenoted⟩ := run_assign supply (drafted_of_draft h) n
  exact ⟨forest, Instruction.forest?_eq_some_iff.mpr (hrun {}), hdenoted⟩

/-- The instructions of a fragment denote a forest; without its keys it is the fragment, but for
what has no place in a patch. -/
theorem forest?_assign {config : PatchConfig} (supply : Nat → String) (n : Nat) {f : Fragment}
    {drafts : List Draft} (h : f.draft config = .ok drafts) :
    ∃ forest, Instruction.forest? (assign supply n drafts) = some forest ∧
      LiveNode.toNodes forest =
        Node.shown config.dropEmptyAttributes true (f.forest Fragment.root) := by
  obtain ⟨forest, hforest, hdenoted⟩ := denoted_of_draft supply n h
  exact ⟨forest, hforest, hdenoted.toNodes⟩

end Draft
end LiveMarkup
