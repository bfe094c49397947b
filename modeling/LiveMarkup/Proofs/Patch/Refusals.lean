import LiveMarkup.Patch.Compiler
import LiveMarkup.Proofs.Patch.Places

/-!
# Why a source has no patch

A fragment has no patch if and only if there is a comment or a directive in it, and then the error
tells which of them comes first and where it stands.  Neither how elements are keyed nor which
attributes are kept makes a difference.

Main definitions:

- `PatchError.raised?`: the error of a result.
- `Node.refusalAll?`: why nodes at a place cannot be compiled.
- `Fragment.isUnhandled`, `Fragment.refusal`: the nodes that cannot be compiled, and their errors.

Main results:

- `Draft.raised?_ofNodes`: compilation raises the error of the first such node.
- `Fragment.refusalAll?_forest`: the first such node below a node, by the numbers of the nodes.
- `PatchCompiler.refuses_first_unhandled`: when and why a source is refused.
-/

namespace LiveMarkup

/-- The error of a result that is one. -/
def PatchError.raised? {α : Type} : Except PatchError α → Option PatchError
  | .ok _ => none
  | .error e => some e

theorem PatchError.raised?_eq_some_iff {α : Type} {result : Except PatchError α} {e : PatchError} :
    raised? result = some e ↔ result = .error e := by
  cases result <;> simp [raised?]

/-! ## Nodes -/

namespace Node

mutual

/-- The error of the first comment or directive at and below a node, given its place and its
position. -/
def refusal? (place : Place) (position : Nat) : Node → Option PatchError
  | .element _ attrs children =>
    refusalAll? (place.child position (Key.authored? attrs)) 0 children
  | .text _ => none
  | .comment _ => some (.unhandledNodeKind .comment (place.key position))
  | .directive _ => some (.unhandledNodeKind .directive (place.key position))

/-- The error of the first comment or directive among nodes at a place and below them, given the
position of the first. -/
def refusalAll? (place : Place) (position : Nat) : List Node → Option PatchError
  | [] => none
  | n :: rest =>
    (refusal? place position n).or
      (refusalAll? place (if n.kind = .tag then position + 1 else position) rest)

end

end Node

namespace Draft

variable (config : PatchConfig)

mutual

theorem raised?_ofNode (place : Place) (position : Nat) (top : Bool) :
    ∀ n : Node, PatchError.raised? (ofNode config place position top n) =
      Node.refusal? place position n
  | .element tag attrs children => by
    have hchildren := raised?_ofNodes (place.child position (Key.authored? attrs)) 0 false children
    rw [Node.refusal?, ← hchildren, ofNode]
    cases ofNodes config (place.child position (Key.authored? attrs)) 0 false children <;> rfl
  | .text _ => rfl
  | .comment _ => rfl
  | .directive _ => rfl

/-- Compilation raises the error of the first node that cannot be compiled, whatever the
settings. -/
theorem raised?_ofNodes (place : Place) (position : Nat) (top : Bool) :
    ∀ ns : List Node, PatchError.raised? (ofNodes config place position top ns) =
      Node.refusalAll? place position ns
  | [] => rfl
  | n :: rest => by
    have hn := raised?_ofNode place position top n
    have hrest := raised?_ofNodes place (if n.kind = .tag then position + 1 else position) top rest
    rw [Node.refusalAll?, ← hn, ← hrest, ofNodes]
    cases ofNode config place position top n with
    | error e => rfl
    | ok first =>
      cases ofNodes config place (if n.kind = .tag then position + 1 else position) top rest <;> rfl

end

end Draft

/-- A source whose fragment is known is refused for the first node that cannot be compiled. -/
theorem PatchCompiler.raised?_compileStack {c : PatchCompiler} {source : String} {f : Fragment}
    (hparse : c.parser source = .ok f) :
    PatchError.raised? (c.compileStack source).1 =
      Node.refusalAll? {} 0 (f.forest Fragment.root) := by
  rw [← Draft.raised?_ofNodes c.config {} 0 true (f.forest Fragment.root)]
  simp only [compileStack, hparse, Fragment.draft]
  cases Draft.ofNodes c.config {} 0 true (f.forest Fragment.root) <;> rfl

/-! ## Fragments -/

namespace Fragment

variable {f : Fragment}

/-- Whether a node is a comment or a directive. -/
def isUnhandled (f : Fragment) (id : Nat) : Bool :=
  f.kind? id == some .comment || f.kind? id == some .directive

/-- The error that a node raises which cannot be compiled: its kind, and where it stands. -/
def refusal (f : Fragment) (id : Nat) : PatchError :=
  .unhandledNodeKind ((f.kind? id).getD .root) (Key.structural (f.anchor id) (f.positions id))

/-- A child and what is below it raise the error of the first of these nodes that cannot be
compiled. -/
theorem refusal?_child (h : f.BuiltUnder CanHold) {id c : Nat} (hc : c ∈ f.children id)
    (hbelow : Node.refusalAll? (f.inside c) 0 (f.forest c) =
      (((f.children c).flatMap f.descendants).find? f.isUnhandled).map f.refusal)
    {content : Content} (hcontent : f.content? c = some content) :
    Node.refusal? (f.inside id) (f.position c) (content.toNode (f.forest c)) =
      ((f.descendants c).find? f.isUnhandled).map f.refusal := by
  have hkind : f.kind? c = some content.kind := by simp [kind?, hcontent]
  rw [descendants_eq, List.find?_cons]
  cases content with
  | tag name attrs =>
    have hunhandled : f.isUnhandled c = false := by simp [isUnhandled, hkind, Content.kind]
    have hkey : f.authoredKey? c = Key.authored? attrs := by
      simp [authoredKey?, hcontent, Content.attrs]
    rw [hunhandled, ← hbelow, ← child_inside hc, hkey]
    rfl
  | text data =>
    have hunhandled : f.isUnhandled c = false := by simp [isUnhandled, hkind, Content.kind]
    have hnone : f.children c = [] := by
      refine h.children_eq_nil fun hhold => ?_
      rcases hhold with rfl | htag
      · cases f.content?_root.symm.trans hcontent
      · simp [isTag, hkind, Content.kind] at htag
    rw [hunhandled, hnone]
    rfl
  | comment data =>
    have hunhandled : f.isUnhandled c = true := by simp [isUnhandled, hkind, Content.kind]
    rw [hunhandled, Option.map_some, refusal, hkind, ← key_inside hc]
    rfl
  | directive data =>
    have hunhandled : f.isUnhandled c = true := by simp [isUnhandled, hkind, Content.kind]
    rw [hunhandled, Option.map_some, refusal, hkind, ← key_inside hc]
    rfl

/-- What is below a node raises the error of the first of these nodes, in document order, that
cannot be compiled. -/
theorem refusalAll?_forest (h : f.BuiltUnder CanHold) :
    ∀ {id : Nat}, Node.refusalAll? (f.inside id) 0 (f.forest id) =
      (((f.children id).flatMap f.descendants).find? f.isUnhandled).map f.refusal := by
  intro id
  induction id using f.induction_below with
  | below id ih =>
    -- The position of a child is the number of elements among the children before it.
    have hafter : ∀ before after, f.children id = before ++ after →
        Node.refusalAll? (f.inside id) (before.countP f.isTag)
            (after.filterMap fun c => (f.content? c).map fun content =>
              content.toNode (f.forest c)) =
          ((after.flatMap f.descendants).find? f.isUnhandled).map f.refusal := by
      intro before after
      induction after generalizing before with
      | nil => intro _; rfl
      | cons c after ihafter =>
        intro hchildren
        have hc : c ∈ f.children id := by simp [hchildren]
        obtain ⟨content, hcontent⟩ :=
          Option.ne_none_iff_exists'.mp (content?_ne_none_of_mem_children hc)
        have hfirst := refusal?_child h hc (ih c hc) hcontent
        have hrest := ihafter (before ++ [c]) (by simp [hchildren])
        have hcount : (before ++ [c]).countP f.isTag =
            if (content.toNode (f.forest c)).kind = .tag then before.countP f.isTag + 1
            else before.countP f.isTag := by
          rw [List.countP_append, List.countP_singleton, isTag_of_content? hcontent]
          cases content <;> rfl
        rw [List.filterMap_cons, hcontent, Option.map_some, Node.refusalAll?, ← hcount,
          ← position_of_children hchildren, hfirst, hrest, List.flatMap_cons, List.find?_append,
          Option.map_or]
    rw [forest_eq]
    exact hafter [] (f.children id) rfl

theorem inside_root (f : Fragment) : f.inside root = {} := by
  have hkey : f.authoredKey? root = none := by simp [authoredKey?]
  have hanchor : f.anchor root = "" := by
    rw [anchor, ancestors_of_parent?_eq_none f.parent?_root]
    rfl
  rw [inside, hkey, hanchor]
  rfl

/-- What is in a fragment raises the error of the first node, in document order, that cannot be
compiled. -/
theorem refusalAll?_root (h : f.BuiltUnder CanHold) :
    Node.refusalAll? {} 0 (f.forest root) =
      ((f.descendants root).find? f.isUnhandled).map f.refusal := by
  have hroot : f.isUnhandled root = false := by simp [isUnhandled]
  rw [← f.inside_root, refusalAll?_forest h, descendants_eq, List.find?_cons, hroot]

theorem lt_size_of_isUnhandled {id : Nat} (h : f.isUnhandled id = true) : id < f.size := by
  by_contra hid
  have hnone : f.content? id = none := content?_eq_none_of_size_le (by omega)
  simp [isUnhandled, kind?, hnone] at h

end Fragment

/-! ## Sources -/

namespace PatchCompiler

/-- A source whose fragment was built by appending nodes under the root and under elements is
refused if and only if there is a comment or a directive in the fragment.  The error names the kind
of the first of them in document order and where it stands: the key of the nearest element with an
id above it, or nothing, and the positions from there down to the node, of which the last is the
number of elements among its siblings before it. -/
theorem refuses_first_unhandled {c : PatchCompiler} {source : String} {f : Fragment}
    (hparse : c.parser source = .ok f) (hbuilt : f.BuiltUnder Fragment.CanHold) :
    ((∃ e, (c.compileStack source).1 = .error e) ↔ ∃ id, f.isUnhandled id = true) ∧
      ∀ e, (c.compileStack source).1 = .error e →
        ∃ before id after kind, f.descendants Fragment.root = before ++ id :: after ∧
          (∀ x ∈ before, f.isUnhandled x = false) ∧ f.isUnhandled id = true ∧
          f.kind? id = some kind ∧
          e = .unhandledNodeKind kind (Key.structural (f.anchor id) (f.positions id)) := by
  have hraised := raised?_compileStack hparse
  rw [Fragment.refusalAll?_root hbuilt] at hraised
  constructor
  · constructor
    · rintro ⟨e, he⟩
      rw [PatchError.raised?_eq_some_iff.mpr he] at hraised
      obtain ⟨id, hfind, -⟩ := Option.map_eq_some_iff.mp hraised.symm
      exact ⟨id, List.find?_some hfind⟩
    · rintro ⟨id, hid⟩
      have hmem := Fragment.mem_descendants_root (Fragment.lt_size_of_isUnhandled hid)
      have hsome : ((f.descendants Fragment.root).find? f.isUnhandled).isSome = true :=
        List.find?_isSome.mpr ⟨id, hmem, hid⟩
      obtain ⟨first, hfirst⟩ := Option.isSome_iff_exists.mp hsome
      rw [hfirst, Option.map_some] at hraised
      exact ⟨_, PatchError.raised?_eq_some_iff.mp hraised⟩
  · intro e he
    rw [PatchError.raised?_eq_some_iff.mpr he] at hraised
    obtain ⟨id, hfind, rfl⟩ := Option.map_eq_some_iff.mp hraised.symm
    obtain ⟨hid, before, after, hdescendants, hbefore⟩ := List.find?_eq_some_iff_append.mp hfind
    obtain ⟨kind, hkind⟩ : ∃ kind, f.kind? id = some kind := by
      refine Option.ne_none_iff_exists'.mp fun hnone => ?_
      simp [Fragment.isUnhandled, hnone] at hid
    refine ⟨before, id, after, kind, hdescendants, ?_, hid, hkind, ?_⟩
    · simpa using hbefore
    · rw [Fragment.refusal, hkind, Option.getD_some]

/-- A comment behind an element with an id, in an element that is counted from one with an id; a
directive that was appended earlier comes later in document order. -/
theorem refuses_first_unhandled_in_item :
    let before := (((({} : Fragment).appendText 0 "lead").1.appendElement 0 "p" []).1.appendElement
        0 "div" [⟨"id", "a@b"⟩]).1
    let item := (((before.appendDirective 0 "d").1.appendElement 3 "b" [⟨"id", ""⟩]).1.appendText
        3 "t").1
    let f := ((((item.appendElement 3 "i" []).1.appendElement 7 "u" [⟨"id", "k"⟩]).1.appendElement
        8 "s" []).1.appendComment 7 "c").1
    let c := PatchCompiler.new (fun _ => .ok f) {}
    c.parser "" = .ok f ∧ f.BuiltUnder Fragment.CanHold ∧
      (∃ id, f.isUnhandled id = true) ∧
      f.descendants Fragment.root = [0, 1, 2, 3, 5, 6, 7, 8, 9] ++ 10 :: [4] ∧
      (c.compileStack "").1 = .error (.unhandledNodeKind .comment "a@@b@1.1") ∧
      ∃ before id after kind, f.descendants Fragment.root = before ++ id :: after ∧
        (∀ x ∈ before, f.isUnhandled x = false) ∧ f.isUnhandled id = true ∧
        f.kind? id = some kind ∧ PatchError.unhandledNodeKind .comment "a@@b@1.1" =
          .unhandledNodeKind kind (Key.structural (f.anchor id) (f.positions id)) := by
  intro before item f c
  have hparse : c.parser "" = .ok f := rfl
  have hbuilt : f.BuiltUnder Fragment.CanHold :=
    .comment (.element (.element (.element (.text (.element (.directive (.element (.element
      (.text .empty (by decide) _) (by decide) _ _) (by decide) _ _) (by decide) _)
      (by decide +kernel) _ _) (by decide +kernel) _) (by decide +kernel) _ _)
      (by decide +kernel) _ _) (by decide +kernel) _ _) (by decide +kernel) _
  have herror : (c.compileStack "").1 = .error (.unhandledNodeKind .comment "a@@b@1.1") := by
    decide +kernel
  obtain ⟨hrefused, hfirst⟩ := refuses_first_unhandled hparse hbuilt
  exact ⟨hparse, hbuilt, hrefused.mp ⟨_, herror⟩, by decide +kernel, herror, hfirst _ herror⟩

end PatchCompiler
end LiveMarkup
