import LiveMarkup.Proofs.Patch.Drafts
import LiveMarkup.Proofs.Patch.Keys
import Mathlib.Data.List.Nodup

/-!
# Structural identity

Under structural identity the elements of a fragment get the keys of their origins: the element's
own id, or its path of positions from the nearest element with an id.  Where no id is used twice, no
two elements have one origin, so no two have one key.

Main definitions:

- `Attribute.authoredId?`, `Node.authoredIds`: the ids of elements.
- `Node.origins`: where the keys of elements come from.

Main results:

- `Draft.filterMap_key?_assign`: the keys of compiled nodes are those of their origins.
- `Node.nodup_origins`: different ids make different origins.
- `PatchCompiler.keys_identify_elements`: what keys tell, and that those of a patch are different.
-/

namespace LiveMarkup

open Key (Origin)

/-! ## Authored ids -/

/-- The id of an element, which is its first attribute with that name, if it is not empty. -/
def Attribute.authoredId? (attrs : List Attribute) : Option String :=
  (Attribute.find? attrs "id").filter fun id => id != ""

theorem Key.authored?_eq (attrs : List Attribute) :
    Key.authored? attrs = (Attribute.authoredId? attrs).map Key.authored := by
  unfold Key.authored? Attribute.authoredId?
  cases Attribute.find? attrs "id" with
  | none => rfl
  | some id =>
    by_cases hid : id = ""
    · simp [hid, Option.filter]
    · simp [hid, Option.filter]

theorem Attribute.authoredId?_ne_empty {attrs : List Attribute} {id : String}
    (h : Attribute.authoredId? attrs = some id) : id ≠ "" := by
  have hfilter := (Option.filter_eq_some_iff.mp h).2
  simpa using hfilter

namespace Node

mutual

/-- The ids of the elements among a node and everything below it, in document order. -/
def authoredIds : Node → List String
  | .element _ attrs children => (Attribute.authoredId? attrs).toList ++ authoredIdsAll children
  | .text _ => []
  | .comment _ => []
  | .directive _ => []

/-- The ids of the elements among nodes and below them, in document order. -/
def authoredIdsAll : List Node → List String
  | [] => []
  | n :: rest => authoredIds n ++ authoredIdsAll rest

end

mutual

theorem empty_not_mem_authoredIds : ∀ n : Node, "" ∉ authoredIds n
  | .element _ attrs children => by
    rw [authoredIds, List.mem_append, Option.mem_toList]
    rintro (hid | hmem)
    · exact Attribute.authoredId?_ne_empty hid rfl
    · exact empty_not_mem_authoredIdsAll children hmem
  | .text _ => List.not_mem_nil
  | .comment _ => List.not_mem_nil
  | .directive _ => List.not_mem_nil

theorem empty_not_mem_authoredIdsAll : ∀ ns : List Node, "" ∉ authoredIdsAll ns
  | [] => List.not_mem_nil
  | n :: rest => by
    rw [authoredIdsAll, List.mem_append]
    exact not_or.mpr ⟨empty_not_mem_authoredIds n, empty_not_mem_authoredIdsAll rest⟩

end

/-! ## Origins of keys -/

mutual

/-- Where the keys of the elements among a node and everything below it come from, in document
order, given the nearest id above, the positions from there down to the parent, and the position of
the node. -/
def origins (id : String) (path : List Nat) (position : Nat) : Node → List Origin
  | .element _ attrs children =>
    match Attribute.authoredId? attrs with
    | some own => ⟨own, none⟩ :: originsAll own [] 0 children
    | none => ⟨id, some (path ++ [position])⟩ :: originsAll id (path ++ [position]) 0 children
  | .text _ => []
  | .comment _ => []
  | .directive _ => []

/-- Where the keys of the elements among nodes and below them come from, given the position of the
first. -/
def originsAll (id : String) (path : List Nat) (position : Nat) : List Node → List Origin
  | [] => []
  | n :: rest =>
    origins id path position n ++
      originsAll id path (if n.kind = .tag then position + 1 else position) rest

end

mutual

/-- An origin starts from an id at or below the node, or leads on from its position. -/
theorem id_or_path_of_mem_origins {o : Origin} {id : String} {path : List Nat} {position : Nat} :
    ∀ n : Node, o ∈ origins id path position n → o.id ∈ authoredIds n ∨
      o.id = id ∧ n.kind = .tag ∧ ∃ below, o.path = some (path ++ position :: below)
  | .element _ attrs children, ho => by
    rw [origins] at ho
    rw [authoredIds, List.mem_append, Option.mem_toList]
    split at ho
    · next own hown =>
      left
      rcases List.mem_cons.mp ho with rfl | ho
      · exact Or.inl hown
      · rcases id_or_path_of_mem_originsAll children ho with hmem | ⟨heq, -⟩
        · exact Or.inr hmem
        · exact Or.inl (heq ▸ hown)
    · rcases List.mem_cons.mp ho with rfl | ho
      · exact Or.inr ⟨rfl, rfl, [], rfl⟩
      · rcases id_or_path_of_mem_originsAll children ho with hmem | ⟨heq, q, below, -, hpath⟩
        · exact Or.inl (Or.inr hmem)
        · exact Or.inr ⟨heq, rfl, q :: below, by simp [hpath]⟩
  | .text _, ho => absurd ho List.not_mem_nil
  | .comment _, ho => absurd ho List.not_mem_nil
  | .directive _, ho => absurd ho List.not_mem_nil

/-- An origin starts from an id at or below the nodes, or leads on from the position of one of
them. -/
theorem id_or_path_of_mem_originsAll {o : Origin} {id : String} {path : List Nat}
    {position : Nat} :
    ∀ ns : List Node, o ∈ originsAll id path position ns → o.id ∈ authoredIdsAll ns ∨
      o.id = id ∧ ∃ q below, position ≤ q ∧ o.path = some (path ++ q :: below)
  | [], ho => absurd ho List.not_mem_nil
  | n :: rest, ho => by
    rw [originsAll, List.mem_append] at ho
    rw [authoredIdsAll, List.mem_append]
    rcases ho with ho | ho
    · rcases id_or_path_of_mem_origins n ho with hmem | ⟨heq, -, below, hpath⟩
      · exact Or.inl (Or.inl hmem)
      · exact Or.inr ⟨heq, position, below, Nat.le_refl _, hpath⟩
    · rcases id_or_path_of_mem_originsAll rest ho with hmem | ⟨heq, q, below, hle, hpath⟩
      · exact Or.inl (Or.inr hmem)
      · refine Or.inr ⟨heq, q, below, Nat.le_trans ?_ hle, hpath⟩
        split <;> omega

end

mutual

/-- Where no id is used twice, the origins at and below a node are different. -/
theorem nodup_origins {id : String} {path : List Nat} {position : Nat} :
    ∀ n : Node, (authoredIds n).Nodup → id ∉ authoredIds n → (origins id path position n).Nodup
  | .element _ attrs children, hnodup, hid => by
    rw [authoredIds, List.nodup_append] at hnodup
    rw [authoredIds, List.mem_append, not_or] at hid
    obtain ⟨-, hchildren, hapart⟩ := hnodup
    rw [origins]
    split
    · next own hown =>
      have hfresh : own ∉ authoredIdsAll children := fun hmem =>
        hapart own (by simp [hown]) own hmem rfl
      refine List.nodup_cons.mpr ⟨?_, nodup_originsAll children hchildren hfresh⟩
      intro hmem
      rcases id_or_path_of_mem_originsAll children hmem with hmem | ⟨-, q, below, -, hpath⟩
      · exact hfresh hmem
      · cases hpath
    · refine List.nodup_cons.mpr ⟨?_, nodup_originsAll children hchildren hid.2⟩
      intro hmem
      rcases id_or_path_of_mem_originsAll children hmem with hmem | ⟨-, q, below, -, hpath⟩
      · exact hid.2 hmem
      · have hlength := congrArg List.length (Option.some.inj hpath)
        simp at hlength
  | .text _, _, _ => List.nodup_nil
  | .comment _, _, _ => List.nodup_nil
  | .directive _, _, _ => List.nodup_nil

/-- Where no id is used twice, the origins at and below nodes are different. -/
theorem nodup_originsAll {id : String} {path : List Nat} {position : Nat} :
    ∀ ns : List Node, (authoredIdsAll ns).Nodup → id ∉ authoredIdsAll ns →
      (originsAll id path position ns).Nodup
  | [], _, _ => List.nodup_nil
  | n :: rest, hnodup, hid => by
    rw [authoredIdsAll, List.nodup_append] at hnodup
    rw [authoredIdsAll, List.mem_append, not_or] at hid
    obtain ⟨hn, hrest, hapart⟩ := hnodup
    rw [originsAll, List.nodup_append]
    refine ⟨nodup_origins n hn hid.1, nodup_originsAll rest hrest hid.2, ?_⟩
    rintro o ho _ ho' rfl
    rcases id_or_path_of_mem_origins n ho with hmem | ⟨heq, htag, below, hpath⟩
    · rcases id_or_path_of_mem_originsAll rest ho' with hmem' | ⟨heq', -⟩
      · exact hapart _ hmem _ hmem' rfl
      · exact hid.1 (heq' ▸ hmem)
    · rcases id_or_path_of_mem_originsAll rest ho' with hmem' | ⟨-, q, below', hle, hpath'⟩
      · exact hid.2 (heq ▸ hmem')
      · -- The others stand at later positions.
        rw [if_pos htag] at hle
        rw [hpath, Option.some.injEq] at hpath'
        have hposition := (List.cons.inj (List.append_cancel_left hpath')).1
        omega

end

end Node

/-! ## Keys of compiled nodes -/

namespace Draft

/-- The keys of an element that is known, of what is drafted inside and of what follows. -/
theorem filterMap_key?_assign_element (supply : Nat → String) (n : Nat) (tag key : String)
    (attrs : List Attribute) (inner others : List Draft) :
    (assign supply n (.openElement tag (some key) attrs ::
        (inner ++ .closeElement tag :: others))).filterMap Instruction.key? =
      key :: ((assign supply n inner).filterMap Instruction.key? ++
        (assign supply (n + inner.countP lacksKey) others).filterMap Instruction.key?) := by
  simp only [assign, assign_append, List.filterMap_append,
    List.filterMap_cons_some (show Instruction.key? (.openElement tag key attrs) = some key from rfl),
    List.filterMap_cons_none (show Instruction.key? (.closeElement tag) = none from rfl)]

/-- The keys of compiled nodes are those of their origins. -/
theorem filterMap_key?_assign {config : PatchConfig} (hconfig : config.identity = .structural)
    (supply : Nat → String) {place : Place} {position : Nat} {top : Bool} {ns : List Node}
    {drafts : List Draft} (h : Drafted config place position top ns drafts) :
    ∀ (n : Nat) {id : String} {path : List Nat}, place = ⟨Key.authored id, path⟩ →
      (assign supply n drafts).filterMap Instruction.key? =
        (Node.originsAll id path position ns).map Origin.key := by
  induction h with
  | nil =>
    intro n id path _
    rfl
  | @element place position top tag attrs children rest inner others _ _ ihinner ihothers =>
    rintro n id path rfl
    rw [Node.originsAll, Node.origins, Key.authored?_eq, List.map_append]
    rw [Key.authored?_eq] at ihinner
    cases hown : Attribute.authoredId? attrs with
    | some own =>
      rw [hown] at ihinner
      simp only [Option.map_some, knownKey]
      rw [filterMap_key?_assign_element, ihinner n rfl, ihothers _ rfl]
      rfl
    | none =>
      rw [hown] at ihinner
      simp only [Option.map_none, knownKey, hconfig]
      rw [filterMap_key?_assign_element, ihinner n rfl, ihothers _ rfl]
      rfl
  | @text place position top data rest others _ ihothers =>
    rintro n id path hplace
    rw [assign_append, List.filterMap_append, ihothers _ hplace]
    split
    · rfl
    · rfl

/-- Under structural identity, a fragment in which no id is used twice is compiled to instructions
in which no key is used twice. -/
theorem nodup_filterMap_key?_assign {config : PatchConfig} (hconfig : config.identity = .structural)
    (supply : Nat → String) (n : Nat) {f : Fragment} {drafts : List Draft}
    (hdraft : f.draft config = .ok drafts)
    (hids : (Node.authoredIdsAll (f.forest Fragment.root)).Nodup) :
    ((assign supply n drafts).filterMap Instruction.key?).Nodup := by
  have hplace : ({} : Place) = ⟨Key.authored "", []⟩ := rfl
  rw [filterMap_key?_assign hconfig supply (drafted_of_draft hdraft) n hplace]
  exact (Node.nodup_originsAll _ hids (Node.empty_not_mem_authoredIdsAll _)).map
    Origin.key_injective

end Draft

namespace PatchCompiler

/-- Different ids have different keys, the key of a place determines its anchor and its positions,
and no key of an id is that of a place; the empty anchor is the key of the empty id, which no
element has.  So under structural identity, a source in whose fragment no id is used twice is never
compiled to instructions that open two elements with one key. -/
theorem keys_identify_elements :
    Function.Injective Key.authored ∧ Key.authored "" = "" ∧
      (∀ a b p q, Key.structural (Key.authored a) p = Key.structural (Key.authored b) q →
        a = b ∧ p = q) ∧
      (∀ a b p, Key.authored a ≠ Key.structural (Key.authored b) p) ∧
      ∀ (c : PatchCompiler) (source : String) (f : Fragment) (instructions : List Instruction),
        c.config.identity = .structural → c.parser source = .ok f →
        (Node.authoredIdsAll (f.forest Fragment.root)).Nodup →
        (c.compileStack source).1 = .ok instructions →
        (instructions.filterMap Instruction.key?).Nodup := by
  refine ⟨Key.authored_injective, rfl, ?_, Key.authored_ne_structural, ?_⟩
  · intro a b p q h
    obtain ⟨hanchor, hpath⟩ := Key.structural_inj h
    exact ⟨Key.authored_injective hanchor, hpath⟩
  · intro c source f instructions hconfig hparse hids hcompile
    obtain ⟨f', drafts, hparse', hdraft, rfl⟩ := compileStack_eq_ok hcompile
    rw [hparse] at hparse'
    cases hparse'
    exact Draft.nodup_filterMap_key?_assign hconfig c.supply c.drawn hdraft hids

/-- An id that looks like the key of a place, elements below it and beside it, and an empty id. -/
theorem keys_identify_elements_beside_at_signs :
    let nodes := [Node.element "div" [⟨"id", "@0"⟩] [.element "p" [] [], .text "t",
      .element "p" [⟨"id", "@"⟩] [.element "b" [] []]], .element "p" [⟨"id", ""⟩] []]
    let c := PatchCompiler.new (fun _ => .ok (Fragment.ofNodes nodes)) .structural
    let instructions := [Instruction.openElement "div" "@@0" [⟨"id", "@0"⟩],
      .openElement "p" "@@0@0" [], .closeElement "p", .text "t",
      .openElement "p" "@@" [⟨"id", "@"⟩], .openElement "b" "@@@0" [], .closeElement "b",
      .closeElement "p", .closeElement "div", .openElement "p" "@1" [], .closeElement "p"]
    (Node.authoredIdsAll ((Fragment.ofNodes nodes).forest Fragment.root)).Nodup ∧
      (c.compileStack "").1 = .ok instructions ∧
      (instructions.filterMap Instruction.key?).Nodup := by
  intro nodes c instructions
  have hids : (Node.authoredIdsAll ((Fragment.ofNodes nodes).forest Fragment.root)).Nodup := by
    decide +kernel
  have hcompile : (c.compileStack "").1 = .ok instructions := by decide +kernel
  exact ⟨hids, hcompile, keys_identify_elements.2.2.2.2 c "" _ _ rfl rfl hids hcompile⟩

end PatchCompiler
end LiveMarkup
