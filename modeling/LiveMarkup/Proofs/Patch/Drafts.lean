import LiveMarkup.Patch.Compiler

/-!
# Drafts of nodes

A successful draft runs through the nodes in document order.  As a relation between nodes and
drafts it has one rule for each kind of node that can be compiled, so that facts about compiled
fragments are proved by one induction.

Main definitions:

- `Draft.Drafted`: the draft of nodes at a place.

Main results:

- `Draft.drafted_of_ofNodes`: a successful draft obeys the rules.
- `Draft.ofNodes_congr`: the settings that make a difference to drafts.
- `Draft.assign_append`: missing keys are drawn from left to right.
- `Draft.assign_element`: the instructions of an element.
- `PatchCompiler.compileStack_eq_ok`: what is compiled is a draft with its keys.
-/

namespace LiveMarkup
namespace Draft

/-- The draft of nodes at a place, the first at a position among the elements there. -/
inductive Drafted (config : PatchConfig) :
    Place → Nat → Bool → List Node → List Draft → Prop where
  | nil {place : Place} {position : Nat} {top : Bool} : Drafted config place position top [] []
  | element {place : Place} {position : Nat} {top : Bool} {tag : String} {attrs : List Attribute}
      {children rest : List Node} {inner others : List Draft}
      (hinner : Drafted config (place.child position (Key.authored? attrs)) 0 false children inner)
      (hothers : Drafted config place (position + 1) top rest others) :
      Drafted config place position top (.element tag attrs children :: rest)
        (.openElement tag (knownKey config place position (Key.authored? attrs))
          (keptAttributes config attrs) :: (inner ++ .closeElement tag :: others))
  | text {place : Place} {position : Nat} {top : Bool} {data : String} {rest : List Node}
      {others : List Draft} (hothers : Drafted config place position top rest others) :
      Drafted config place position top (.text data :: rest)
        ((if top || data = "" then [] else [.text data]) ++ others)

/-- Under structural identity every key is known. -/
theorem knownKey_of_structural {config : PatchConfig} (hconfig : config.identity = .structural)
    (place : Place) (position : Nat) (authored : Option String) :
    knownKey config place position authored = some (authored.getD (place.key position)) := by
  cases authored <;> simp [knownKey, hconfig]

theorem knownKey_congr {config config' : PatchConfig}
    (hidentity : config.identity = config'.identity) (place : Place) (position : Nat)
    (authored : Option String) :
    knownKey config place position authored = knownKey config' place position authored := by
  unfold knownKey
  rw [hidentity]

theorem keptAttributes_congr {config config' : PatchConfig}
    (hdrop : config.dropEmptyAttributes = config'.dropEmptyAttributes) (attrs : List Attribute) :
    keptAttributes config attrs = keptAttributes config' attrs := by
  rw [keptAttributes, keptAttributes, hdrop]

mutual

theorem ofNode_congr {config config' : PatchConfig} (hidentity : config.identity = config'.identity)
    (hdrop : config.dropEmptyAttributes = config'.dropEmptyAttributes) (place : Place)
    (position : Nat) (top : Bool) :
    ∀ n : Node, ofNode config place position top n = ofNode config' place position top n
  | .element tag attrs children => by
    rw [ofNode, ofNode, ofNodes_congr hidentity hdrop _ 0 false children,
      knownKey_congr hidentity, keptAttributes_congr hdrop]
  | .text _ => rfl
  | .comment _ => rfl
  | .directive _ => rfl

/-- Two settings that differ neither in the identity nor in the attributes left out make the same
drafts. -/
theorem ofNodes_congr {config config' : PatchConfig}
    (hidentity : config.identity = config'.identity)
    (hdrop : config.dropEmptyAttributes = config'.dropEmptyAttributes) (place : Place)
    (position : Nat) (top : Bool) :
    ∀ ns : List Node, ofNodes config place position top ns = ofNodes config' place position top ns
  | [] => rfl
  | n :: rest => by
    rw [ofNodes, ofNodes, ofNode_congr hidentity hdrop place position top n,
      ofNodes_congr hidentity hdrop place _ top rest]

end

/-- The draft of several nodes is that of the first and that of the others. -/
theorem ofNodes_cons_eq_ok {config : PatchConfig} {place : Place} {position : Nat} {top : Bool}
    {n : Node} {rest : List Node} {drafts : List Draft}
    (h : ofNodes config place position top (n :: rest) = .ok drafts) :
    ∃ first others, ofNode config place position top n = .ok first ∧
      ofNodes config place (if n.kind = .tag then position + 1 else position) top rest =
        .ok others ∧ drafts = first ++ others := by
  rw [ofNodes] at h
  split at h
  · next first hfirst =>
    split at h
    · next others hothers =>
      cases h
      exact ⟨first, others, hfirst, hothers, rfl⟩
    · cases h
  · cases h

/-- The draft of an element opens it, goes on with its children and closes it. -/
theorem ofNode_element_eq_ok {config : PatchConfig} {place : Place} {position : Nat} {top : Bool}
    {tag : String} {attrs : List Attribute} {children : List Node} {drafts : List Draft}
    (h : ofNode config place position top (.element tag attrs children) = .ok drafts) :
    ∃ inner, ofNodes config (place.child position (Key.authored? attrs)) 0 false children =
        .ok inner ∧
      drafts = .openElement tag (knownKey config place position (Key.authored? attrs))
        (keptAttributes config attrs) :: (inner ++ [.closeElement tag]) := by
  simp only [ofNode] at h
  split at h
  · next inner hinner =>
    cases h
    exact ⟨inner, hinner, rfl⟩
  · cases h

/-- A successful draft obeys the rules. -/
theorem drafted_of_ofNodes {config : PatchConfig} :
    ∀ {place : Place} {position : Nat} {top : Bool} (ns : List Node) {drafts : List Draft},
      ofNodes config place position top ns = .ok drafts →
        Drafted config place position top ns drafts
  | _, _, _, [], _, h => by
    rw [ofNodes] at h
    cases h
    exact .nil
  | _, _, _, .element tag attrs children :: rest, _, h => by
    obtain ⟨first, others, hfirst, hothers, rfl⟩ := ofNodes_cons_eq_ok h
    obtain ⟨inner, hinner, rfl⟩ := ofNode_element_eq_ok hfirst
    rw [List.cons_append, List.append_assoc, List.singleton_append]
    exact .element (drafted_of_ofNodes children hinner) (drafted_of_ofNodes rest hothers)
  | _, _, _, .text data :: rest, _, h => by
    obtain ⟨first, others, hfirst, hothers, rfl⟩ := ofNodes_cons_eq_ok h
    rw [ofNode] at hfirst
    cases hfirst
    exact .text (drafted_of_ofNodes rest hothers)
  | _, _, _, .comment _ :: _, _, h => by
    obtain ⟨first, others, hfirst, -, -⟩ := ofNodes_cons_eq_ok h
    rw [ofNode] at hfirst
    cases hfirst
  | _, _, _, .directive _ :: _, _, h => by
    obtain ⟨first, others, hfirst, -, -⟩ := ofNodes_cons_eq_ok h
    rw [ofNode] at hfirst
    cases hfirst

/-- A drafted fragment obeys the rules from its root on. -/
theorem drafted_of_draft {config : PatchConfig} {f : Fragment} {drafts : List Draft}
    (h : f.draft config = .ok drafts) :
    Drafted config {} 0 true (f.forest Fragment.root) drafts :=
  drafted_of_ofNodes _ h

/-- Missing keys are drawn from left to right. -/
theorem assign_append (supply : Nat → String) (n : Nat) (first second : List Draft) :
    assign supply n (first ++ second) =
      assign supply n first ++ assign supply (n + first.countP lacksKey) second := by
  induction first generalizing n with
  | nil => rfl
  | cons draft rest ih =>
    cases draft with
    | openElement tag key attrs =>
      cases key with
      | some key => simp [assign, ih, lacksKey]
      | none =>
        simp only [List.cons_append, assign, ih]
        rw [List.countP_cons_of_pos rfl, Nat.add_right_comm, Nat.add_assoc n]
    | closeElement tag => simp [assign, ih, lacksKey]
    | text content => simp [assign, ih, lacksKey]

/-- An element is opened by its key or else by the next one that is drawn; what is in it follows,
and then it is closed. -/
theorem assign_element (supply : Nat → String) (n : Nat) (tag : String) (known : Option String)
    (attrs : List Attribute) (inner others : List Draft) :
    ∃ m m', assign supply n
        (.openElement tag known attrs :: (inner ++ .closeElement tag :: others)) =
      .openElement tag (known.getD (supply n)) attrs ::
        (assign supply m inner ++ .closeElement tag :: assign supply m' others) := by
  cases known with
  | some key => exact ⟨n, n + inner.countP lacksKey, by rw [assign, assign_append, assign]; rfl⟩
  | none => exact ⟨n + 1, n + 1 + inner.countP lacksKey, by rw [assign, assign_append, assign]; rfl⟩

end Draft

namespace PatchCompiler

/-- A compiled source was parsed, drafted, and given the keys that it lacked. -/
theorem compileStack_eq_ok {c : PatchCompiler} {source : String} {instructions : List Instruction}
    (h : (c.compileStack source).1 = .ok instructions) :
    ∃ f drafts, c.parser source = .ok f ∧ f.draft c.config = .ok drafts ∧
      instructions = Draft.assign c.supply c.drawn drafts := by
  unfold compileStack at h
  dsimp only at h
  split at h
  · cases h
  · next f hparse =>
    split at h
    · cases h
    · next drafts hdraft =>
      cases h
      exact ⟨f, drafts, hparse, hdraft, rfl⟩

/-- What is compiled from a source whose fragment is known is its draft with the keys that it
lacked. -/
theorem exists_draft_of_compileStack {c : PatchCompiler} {source : String} {f : Fragment}
    {instructions : List Instruction} (hparse : c.parser source = .ok f)
    (h : (c.compileStack source).1 = .ok instructions) :
    ∃ drafts, f.draft c.config = .ok drafts ∧
      instructions = Draft.assign c.supply c.drawn drafts := by
  obtain ⟨f', drafts, hparse', hdraft, heq⟩ := compileStack_eq_ok h
  rw [hparse] at hparse'
  cases hparse'
  exact ⟨drafts, hdraft, heq⟩

end PatchCompiler
end LiveMarkup
