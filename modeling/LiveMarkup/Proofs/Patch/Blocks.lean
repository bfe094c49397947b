import LiveMarkup.Patch.Transcript
import LiveMarkup.Proofs.Markup.Elements
import LiveMarkup.Proofs.Patch.Linearization
import LiveMarkup.Proofs.Patch.Places
import Mathlib.Data.List.Forall2

/-!
# The blocks of elements

The block of an element is the run of instructions from the one that opens it to the one that closes
it.  The blocks of a stream, in the order in which they begin, are those of the elements of its
fragment.  Under structural identity the block of an element with an id depends on nothing outside
the element.

Main definitions:

- `Instruction.blocks`: the blocks of a stream.
- `Fragment.block?`: the block of an element in the stream of its fragment.

Main results:

- `LiveNode.blocks_instructionsAll`: the blocks of a stream that denotes a forest.
- `Draft.Denoted.unique`: under structural identity nodes stand for the same trees, always.
- `Draft.Denoted.elements`: the elements of compiled nodes stand for those of the trees.
- `PatchCompiler.keyed_block_eq`: where an element with an id stands makes no difference to its
  block.
-/

namespace LiveMarkup

namespace Instruction

/-- The instructions up to the one that closes the outermost of a number of open elements. -/
def upToClose : Nat → List Instruction → List Instruction
  | 0, _ => []
  | _ + 1, [] => []
  | depth + 1, i :: rest => i :: upToClose (Transcript.nextDepth (depth + 1) i) rest

/-- The blocks of the elements that are opened, in the order in which they begin. -/
def blocks : List Instruction → List (List Instruction)
  | [] => []
  | .openElement tag key attrs :: rest =>
    (.openElement tag key attrs :: upToClose 1 rest) :: blocks rest
  | .closeElement _ :: rest => blocks rest
  | .text _ :: rest => blocks rest

end Instruction

/-- The block of an element in the stream of its fragment. -/
def Fragment.block? (f : Fragment) (stream : List Instruction) (id : Nat) :
    Option (List Instruction) :=
  (Instruction.blocks stream)[f.elements.idxOf id]?

/-! ## Forests -/

namespace LiveNode

mutual

/-- The elements at and below a tree, in document order, each with what lies below it. -/
def elements : LiveNode → List LiveNode
  | .element tag key attrs children => .element tag key attrs children :: elementsAll children
  | .text _ => []
  | .comment _ => []

/-- The elements among trees and below them, in document order, each with what lies below it. -/
def elementsAll : List LiveNode → List LiveNode
  | [] => []
  | n :: rest => elements n ++ elementsAll rest

end

open Instruction (upToClose blocks)

mutual

/-- What a tree writes down closes no element that was open before. -/
theorem upToClose_instructions (depth : Nat) (rest : List Instruction) :
    ∀ n : LiveNode, upToClose (depth + 1) (instructions n ++ rest) =
      instructions n ++ upToClose (depth + 1) rest
  | .element tag key attrs children => by
    have hchildren := upToClose_instructionsAll (depth + 1) (.closeElement tag :: rest) children
    simp only [instructions, List.cons_append, List.append_assoc, List.nil_append, upToClose,
      Transcript.nextDepth, hchildren, Nat.add_sub_cancel]
  | .text _ => rfl
  | .comment _ => rfl

/-- What trees write down closes no element that was open before. -/
theorem upToClose_instructionsAll (depth : Nat) (rest : List Instruction) :
    ∀ forest : List LiveNode, upToClose (depth + 1) (instructionsAll forest ++ rest) =
      instructionsAll forest ++ upToClose (depth + 1) rest
  | [] => rfl
  | n :: after => by
    rw [instructionsAll, List.append_assoc, upToClose_instructions depth _ n,
      upToClose_instructionsAll depth rest after, List.append_assoc]

end

mutual

theorem blocks_instructions (rest : List Instruction) :
    ∀ n : LiveNode, blocks (instructions n ++ rest) =
      (elements n).map instructions ++ blocks rest
  | .element tag key attrs children => by
    have hclose : upToClose 1 (instructionsAll children ++ .closeElement tag :: rest) =
        instructionsAll children ++ [.closeElement tag] := by
      rw [upToClose_instructionsAll 0, upToClose, Transcript.nextDepth, upToClose]
    have hbelow := blocks_instructionsAll (.closeElement tag :: rest) children
    simp only [instructions, elements, List.cons_append, List.append_assoc, List.nil_append,
      List.map_cons, blocks, hclose, hbelow]
  | .text _ => rfl
  | .comment _ => rfl

/-- The blocks of trees that are written down are their elements, each written down. -/
theorem blocks_instructionsAll (rest : List Instruction) :
    ∀ forest : List LiveNode, blocks (instructionsAll forest ++ rest) =
      (elementsAll forest).map instructions ++ blocks rest
  | [] => rfl
  | n :: after => by
    rw [instructionsAll, elementsAll, List.append_assoc, blocks_instructions _ n,
      blocks_instructionsAll rest after, List.map_append, List.append_assoc]

end

end LiveNode

/-! ## Compiled nodes -/

namespace Draft

variable {config config' : PatchConfig}

/-- Under structural identity, nodes at a place always stand for the same trees. -/
theorem Denoted.unique (hidentity : config.identity = .structural)
    (hidentity' : config'.identity = .structural)
    (hdrop : config.dropEmptyAttributes = config'.dropEmptyAttributes) {place : Place}
    {position : Nat} {top : Bool} {ns : List Node} {forest forest' : List LiveNode}
    (h : Denoted config place position top ns forest)
    (h' : Denoted config' place position top ns forest') : forest = forest' := by
  induction h generalizing forest' with
  | nil =>
    cases h'
    rfl
  | @element place position top tag key attrs _ _ _ _ hkey _ _ ihbelow ihafter =>
    cases h' with
    | element hkey' hbelow' hafter' =>
      rw [hkey _ (knownKey_of_structural hidentity place position _),
        hkey' _ (knownKey_of_structural hidentity' place position _), ihbelow hbelow',
        ihafter hafter', keptAttributes_congr hdrop]
  | text _ ihafter =>
    cases h' with
    | text hafter' => rw [ihafter hafter']

/-- The elements among compiled nodes stand, one by one and each at its place, for the elements
among the trees. -/
theorem Denoted.elements {place : Place} {position : Nat} {top : Bool} {ns : List Node}
    {forest : List LiveNode} (h : Denoted config place position top ns forest) :
    List.Forall₂ (fun n tree => ∃ place position, Denoted config place position false [n] [tree])
      (Node.elementsAll ns) (LiveNode.elementsAll forest) := by
  induction h with
  | nil => exact .nil
  | element hkey hbelow _ ihbelow ihafter =>
    rw [Node.elementsAll, Node.elements, LiveNode.elementsAll, LiveNode.elements]
    exact .cons ⟨_, _, .element hkey hbelow .nil⟩ (List.rel_append ihbelow ihafter)
  | text _ ihafter =>
    rw [Node.elementsAll, Node.elements]
    split
    · exact ihafter
    · exact ihafter

/-- Under structural identity, an element with an id stands for the same tree everywhere. -/
theorem Denoted.unique_of_authored (hidentity : config.identity = .structural)
    (hidentity' : config'.identity = .structural)
    (hdrop : config.dropEmptyAttributes = config'.dropEmptyAttributes) {place place' : Place}
    {position position' : Nat} {tag key : String} {attrs : List Attribute} {children : List Node}
    (hauthored : Key.authored? attrs = some key) {tree tree' : LiveNode}
    (h : Denoted config place position false [.element tag attrs children] [tree])
    (h' : Denoted config' place' position' false [.element tag attrs children] [tree']) :
    ∃ below, tree = .element tag (some key) (keptAttributes config attrs) below ∧
      tree' = tree := by
  cases h with
  | element hkey hbelow hafter =>
    cases h' with
    | element hkey' hbelow' hafter' =>
      rw [hauthored] at hkey hkey' hbelow hbelow'
      rw [hkey key rfl, hkey' key rfl, hbelow.unique hidentity hidentity' hdrop hbelow',
        keptAttributes_congr hdrop]
      exact ⟨_, rfl, rfl⟩

end Draft

/-! ## Streams -/

namespace PatchCompiler

/-- The block of an element is what the element stands for, at its place, written down. -/
theorem exists_block {c : PatchCompiler} {source : String} {f : Fragment}
    {stream : List Instruction} (hparse : c.parser source = .ok f)
    (hcompile : (c.compileStack source).1 = .ok stream) {id : Nat} (hid : id ∈ f.elements) :
    ∃ n tree place position, f.node? id = some n ∧
      Draft.Denoted c.config place position false [n] [tree] ∧
      f.block? stream id = some tree.instructions := by
  obtain ⟨drafts, hdraft, rfl⟩ := exists_draft_of_compileStack hparse hcompile
  obtain ⟨forest, hforest, hdenoted⟩ := Draft.denoted_of_draft c.supply c.drawn hdraft
  have hblocks := LiveNode.blocks_instructionsAll [] forest
  rw [Instruction.blocks, List.append_nil, List.append_nil,
    Instruction.instructionsAll_of_forest? hforest] at hblocks
  obtain ⟨n, hnode, hn⟩ := Fragment.getElem?_elementsAll hid
  obtain ⟨hlt, rfl⟩ := List.getElem?_eq_some_iff.mp hn
  obtain ⟨hlength, hstands⟩ := List.forall₂_iff_get.mp hdenoted.elements
  have hlt' := hlength ▸ hlt
  obtain ⟨place, position, htree⟩ := hstands _ hlt hlt'
  refine ⟨_, _, place, position, hnode, htree, ?_⟩
  rw [Fragment.block?, hblocks, List.getElem?_map, List.getElem?_eq_getElem hlt', Option.map_some]
  rfl

/-- Where an element with an id stands makes no difference to its block: if two fragments have such
an element with the same below it, and both are compiled under structural identity with the same
attributes left out, then the block of either element is that of the other, keys included.  It opens
the element by the key of its id and closes it at the end. -/
theorem keyed_block_eq {c c' : PatchCompiler} {source source' : String} {f f' : Fragment}
    {stream stream' : List Instruction} {id id' : Nat} {key : String}
    (hidentity : c.config.identity = .structural) (hidentity' : c'.config.identity = .structural)
    (hdrop : c.config.dropEmptyAttributes = c'.config.dropEmptyAttributes)
    (hparse : c.parser source = .ok f) (hparse' : c'.parser source' = .ok f')
    (hcompile : (c.compileStack source).1 = .ok stream)
    (hcompile' : (c'.compileStack source').1 = .ok stream') (hid : id ∈ f.elements)
    (hid' : id' ∈ f'.elements) (hnode : f.node? id = f'.node? id')
    (hkey : f.authoredKey? id = some key) :
    ∃ tag attrs inner, f.content? id = some (.tag tag attrs) ∧
      f.block? stream id = some (.openElement tag key (Draft.keptAttributes c.config attrs) ::
        (inner ++ [.closeElement tag])) ∧
      f'.block? stream' id' = f.block? stream id := by
  obtain ⟨tag, attrs, hcontent, hauthored⟩ := Fragment.exists_tag_of_authoredKey? hkey
  obtain ⟨n, tree, place, position, hn, hdenoted, hblock⟩ := exists_block hparse hcompile hid
  obtain ⟨n', tree', place', position', hn', hdenoted', hblock'⟩ :=
    exists_block hparse' hcompile' hid'
  have hsame : n' = n := by
    rw [hn, hn'] at hnode
    exact (Option.some.inj hnode).symm
  have helement : n = .element tag attrs (f.forest id) := by
    rw [Fragment.node?, hcontent] at hn
    exact (Option.some.inj hn).symm
  subst hsame helement
  obtain ⟨below, rfl, rfl⟩ := hdenoted.unique_of_authored hidentity hidentity' hdrop hauthored
    hdenoted'
  exact ⟨tag, attrs, LiveNode.instructionsAll below, hcontent, hblock, hblock'.trans hblock.symm⟩

/-- A card below an item, behind a text and an element, and a card alone at the top.  In it there
are elements with and without an id, an empty text and an attribute without a value. -/
theorem keyed_block_eq_of_cards :
    let card := Node.element "div" [⟨"hidden", ""⟩, ⟨"id", "a@b"⟩] [.text "x",
      .element "ul" [] [.element "li" [⟨"id", ""⟩] [.text ""], .text "y", .element "li" [] []],
      .element "b" [⟨"id", "k"⟩] [.element "i" [] []], .element "u" [] []]
    let f := Fragment.ofNodes [.element "p" [] [], .element "main" [⟨"id", "m"⟩]
      [.text "t", .element "br" [] [], .element "p" [] [card, .element "p" [] []]]]
    let f' := Fragment.ofNodes [card]
    let c := PatchCompiler.new (fun _ => .ok f) .structural
    let c' := PatchCompiler.new (fun _ => .ok f') (PatchConfig.structural.withCacheCapacity 1)
    let block := [Instruction.openElement "div" "a@@b" [⟨"id", "a@b"⟩], .text "x",
      .openElement "ul" "a@@b@0" [], .openElement "li" "a@@b@0.0" [], .closeElement "li",
      .text "y", .openElement "li" "a@@b@0.1" [], .closeElement "li", .closeElement "ul",
      .openElement "b" "k" [⟨"id", "k"⟩], .openElement "i" "k@0" [], .closeElement "i",
      .closeElement "b", .openElement "u" "a@@b@2" [], .closeElement "u", .closeElement "div"]
    let stream := [Instruction.openElement "p" "@0" [], .closeElement "p",
      .openElement "main" "m" [⟨"id", "m"⟩], .text "t", .openElement "br" "m@0" [],
      .closeElement "br", .openElement "p" "m@1" []] ++ block ++
        [.openElement "p" "m@1.1" [], .closeElement "p", .closeElement "p", .closeElement "main"]
    (c.compileStack "").1 = .ok stream ∧ (c'.compileStack "").1 = .ok block ∧
      6 ∈ f.elements ∧ 1 ∈ f'.elements ∧ f.node? 6 = some card ∧ f'.node? 1 = some card ∧
      f.authoredKey? 6 = some "a@@b" ∧ f.block? stream 6 = some block ∧
      f'.block? block 1 = some block := by
  intro card f f' c c' block stream
  have hparse : c.parser "" = .ok f := rfl
  have hparse' : c'.parser "" = .ok f' := rfl
  have hidentity : c.config.identity = .structural := rfl
  have hidentity' : c'.config.identity = .structural := rfl
  have hdrop : c.config.dropEmptyAttributes = c'.config.dropEmptyAttributes := rfl
  have hcompile : (c.compileStack "").1 = .ok stream := by decide +kernel
  have hcompile' : (c'.compileStack "").1 = .ok block := by decide +kernel
  have hid : 6 ∈ f.elements := by decide +kernel
  have hid' : 1 ∈ f'.elements := by decide +kernel
  have hnode : f.node? 6 = some card := by
    obtain ⟨n, hn, hget⟩ := Fragment.getElem?_elementsAll hid
    have hfifth : f.elements.idxOf 6 = 4 := by decide +kernel
    rw [Fragment.forest_ofNodes, hfifth] at hget
    exact hn.trans hget.symm
  have hnode' : f'.node? 1 = some card := by
    obtain ⟨n, hn, hget⟩ := Fragment.getElem?_elementsAll hid'
    have hfirst : f'.elements.idxOf 1 = 0 := by decide +kernel
    rw [Fragment.forest_ofNodes, hfirst] at hget
    exact hn.trans hget.symm
  have hkey : f.authoredKey? 6 = some "a@@b" := by decide +kernel
  have hblock : f.block? stream 6 = some block := by decide +kernel
  obtain ⟨-, -, -, -, -, hsame⟩ := keyed_block_eq hidentity hidentity' hdrop hparse hparse'
    hcompile hcompile' hid hid' (hnode.trans hnode'.symm) hkey
  exact ⟨hcompile, hcompile', hid, hid', hnode, hnode', hkey, hblock, hsame.trans hblock⟩

end PatchCompiler
end LiveMarkup
