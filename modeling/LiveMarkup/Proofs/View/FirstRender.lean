import LiveMarkup.Proofs.Dom.Retracing
import LiveMarkup.Proofs.Patch.FirstRender
import LiveMarkup.Proofs.View.Display

/-!
# First render and patch

A host is filled by importing a source, and later changed by patches.  Importing a source and
patching with it lead to the same trees, without what has no place in a patch and but for the keys
of elements without an id.  So a host that was filled can be patched with its own source, and the
elements that are found by their ids keep their handles.

Main results:

- `Document.Reachable.denoted_converge`: what a patch of a plain source leaves.
- `Document.Reachable.retains_converge`: what it retains, where the source stands already.
- `Document.import_agrees_with_patch`: both ways to show a source compared.
-/

namespace LiveMarkup

namespace Document

variable {doc : Document} {target : NodeId} {source : String} {f : Fragment}

/-- A plain source has a patch, of instructions that are drafted from its nodes. -/
theorem Reachable.exists_patch (h : doc.Reachable) (hparse : doc.parser source = .ok f)
    (hplain : Node.isPlainAll (f.forest Fragment.root) = true) :
    ∃ patch drafts n, (doc.compiler.createPatch source).1 = .ok patch ∧
      f.draft doc.compiler.config = .ok drafts ∧
      patch.instructions = Draft.assign doc.compiler.supply n drafts := by
  obtain ⟨drafts, hdrafts⟩ := Draft.exists_ofNodes doc.compiler.config {} 0 true _ hplain
  have hread : doc.compiler.config.read doc.compiler.parser source = .ok f := by
    have hdraft : f.draft doc.compiler.config = .ok drafts := hdrafts
    have hparse' : doc.compiler.parser source = .ok f := hparse
    simp only [PatchConfig.read, hparse', hdraft]
  obtain ⟨patch, hmade⟩ := PatchCompiler.createPatch_of_read_ok hread
  obtain ⟨f', drafts', n, hparse', hdraft', hassign⟩ :=
    (h.coherent.createPatch source).2 patch hmade
  cases hparse.symm.trans hparse'
  exact ⟨patch, drafts', n, hmade, hdraft', hassign⟩

/-- Below a live element a patch with a plain source succeeds, and leaves trees that its nodes stand
for. -/
theorem Reachable.denoted_converge (h : doc.Reachable) (hparse : doc.parser source = .ok f)
    (hplain : Node.isPlainAll (f.forest Fragment.root) = true)
    (htarget : doc.dom.isElement target = true)
    (hsize : (doc.converge target source).2.dom.slots.size ≤ Dom.maxSlots) :
    (doc.converge target source).1 = .ok () ∧
      Draft.Denoted doc.compiler.config {} 0 true (f.forest Fragment.root)
        ((doc.converge target source).2.dom.forest target) := by
  have hwf := h.dom.wellFormed ((slots_size_le_converge doc target source).trans hsize)
  obtain ⟨patch, drafts, n, hmade, hdraft, hassign⟩ := h.exists_patch hparse hplain
  obtain ⟨forest, hdenotes, hdenoted⟩ := Draft.denoted_of_draft doc.compiler.supply n hdraft
  obtain ⟨hdoc, hiff⟩ := converge_of_ok target hmade
  rw [← hassign] at hdenotes
  rw [hdoc] at hsize ⊢
  obtain ⟨hok, hforest⟩ := hwf.forest_patch htarget hdenotes hsize
  exact ⟨hiff.mpr hok, hforest ▸ hdenoted⟩

/-- Where a plain source stands below an element, a patch with it retains every element that has an
id, as have all elements above it. -/
theorem Reachable.retains_converge (h : doc.Reachable) (hparse : doc.parser source = .ok f)
    (hplain : Node.isPlainAll (f.forest Fragment.root) = true)
    (htarget : doc.dom.isElement target = true)
    (hforest : doc.dom.forest target = Node.liveAll (f.forest Fragment.root))
    (hsupply : doc.compiler.config.identity = .generated → ∀ n,
      ∀ id ∈ Node.authoredIdsAll (f.forest Fragment.root),
        doc.compiler.supply n ≠ Key.authored id)
    (hsize : (doc.converge target source).2.dom.slots.size ≤ Dom.maxSlots) :
    doc.dom.Retains (doc.converge target source).2.dom
      ((Node.authoredIdsAll (f.forest Fragment.root)).map Key.authored) target := by
  have hwf := h.dom.wellFormed ((slots_size_le_converge doc target source).trans hsize)
  obtain ⟨patch, drafts, n, hmade, hdraft, hassign⟩ := h.exists_patch hparse hplain
  have htraces : Instruction.Traces
      ((Node.authoredIdsAll (f.forest Fragment.root)).map Key.authored)
      (f.forest Fragment.root) patch.instructions := by
    rw [hassign]
    refine Draft.traces_assign ?_ ?_ (Draft.drafted_of_draft hdraft) n
      (show ({} : Place) = ⟨Key.authored "", []⟩ from rfl)
    · intro key hkey
      obtain ⟨id, -, rfl⟩ := List.mem_map.mp hkey
      exact ⟨id, rfl⟩
    · intro hgenerated m hmem
      obtain ⟨id, hid, heq⟩ := List.mem_map.mp hmem
      exact hsupply hgenerated m id hid heq.symm
  have hstands := Dom.stands_of_forest hwf (f.forest Fragment.root) hplain
    (fun c hc => hwf.isLive_child hc) hforest fun id hid => List.mem_map_of_mem hid
  rw [(converge_of_ok target hmade).1] at hsize ⊢
  exact hwf.retains_patch htarget htraces hstands hsize

/-- Among imported elements, those whose chains have keys only are those whose chains have keys of
ids only. -/
theorem isAnchoredChain_of_forest {d : Dom} {host : NodeId} {ns : List Node}
    (hforest : d.forest host = Node.liveAll ns) {entry : List Label × NodeId}
    (hentry : entry ∈ d.chains host) :
    Dom.isAnchoredChain ((Node.authoredIdsAll ns).map Key.authored) entry =
      entry.1.all fun label => label.key.isSome := by
  have hchain : entry.1 ∈ LiveNode.chainsAll [] (Node.liveAll ns) := by
    rw [← hforest, ← Dom.map_fst_chains]
    exact List.mem_map_of_mem hentry
  rw [Dom.isAnchoredChain, Bool.eq_iff_iff, List.all_eq_true, List.all_eq_true]
  refine forall₂_congr fun label hlabel => ?_
  cases hkey : label.key with
  | none => simp [Label.isAmong, hkey]
  | some key =>
    have hmem := (Node.key_mem_of_mem_chainsAll_liveAll hlabel hkey ns hchain).resolve_left
      List.not_mem_nil
    simp only [Label.isAmong, hkey, Option.any_some, List.contains_iff_mem, Option.isSome_some,
      hmem]

/-- A source without comments and directives is imported into an empty element, and below any live
element a patch with it succeeds.  The trees that the patch leaves are the imported ones, without
the texts at the top, empty texts and, if they are dropped, attributes with an empty value; every
key of an imported element, which is the key of its id, is its key there, and other elements may
have any key.  If moreover no generated key is that of an id in the source, a patch of the imported
tree with the source succeeds, and the elements with ids whose ancestors below the host all have ids
are the same as before, with the same handles, chains and order. -/
theorem import_agrees_with_patch (h : doc.Reachable) (hparse : doc.parser source = .ok f)
    (hplain : Node.isPlainAll (f.forest Fragment.root) = true) {d : Dom} (hd : d.Reachable)
    {host : NodeId} (hhost : d.isElement host = true) (hempty : d.children host = [])
    (htarget : doc.dom.isElement target = true) :
    ∃ added imported, Dom.parseInto doc.parser d host source = .ok (added, imported) ∧
      (imported.slots.size ≤ Dom.maxSlots →
        let config := doc.compiler.config
        let ids := Node.authoredIdsAll (f.forest Fragment.root)
        let patched := doc.converge target source
        let again := { doc with dom := imported }.converge host source
        imported.forest host = Node.liveAll (f.forest Fragment.root) ∧
        (patched.2.dom.slots.size ≤ Dom.maxSlots → patched.1 = .ok () ∧
          LiveNode.Rekeyed
            (LiveNode.shown config.dropEmptyAttributes true (imported.forest host))
            (patched.2.dom.forest target)) ∧
        ((config.identity = .generated → ∀ n, ∀ id ∈ ids,
            doc.compiler.supply n ≠ Key.authored id) →
          again.2.dom.slots.size ≤ Dom.maxSlots → again.1 = .ok () ∧
          (again.2.dom.chains host).filter (Dom.isAnchoredChain (ids.map Key.authored)) =
            (imported.chains host).filter fun entry =>
              entry.1.all fun label => label.key.isSome)) := by
  obtain ⟨added, imported, himport⟩ := Dom.exists_parseInto hhost hparse
  refine ⟨added, imported, himport, fun hsize => ?_⟩
  have hwf := hd.wellFormed ((Dom.slots_size_le_parseInto himport).trans hsize)
  obtain ⟨hdata, hforest⟩ := hwf.forest_parseInto hempty hparse himport hsize
  have himported : Document.Reachable { doc with dom := imported } :=
    .edit h (hd.parseInto himport)
  have hhost' : imported.isElement host = true := (Dom.isElement_congr hdata).trans hhost
  refine ⟨hforest, fun hpatched => ?_, fun hsupply hagain => ?_⟩
  · obtain ⟨hok, hdenoted⟩ := h.denoted_converge hparse hplain htarget hpatched
    rw [hforest]
    exact ⟨hok, hdenoted.rekeyed⟩
  · obtain ⟨hok, -⟩ := himported.denoted_converge hparse hplain hhost' hagain
    have hretains :=
      himported.retains_converge hparse hplain hhost' hforest hsupply hagain
    refine ⟨hok, ?_⟩
    rw [hretains.filter_chains (himported.dom.wellFormed hsize)
      (slots_size_le_converge { doc with dom := imported } host source)]
    exact List.filter_congr fun _ hentry => isAnchoredChain_of_forest hforest hentry

/-- A list in which two items have one id, with an empty attribute, a text at the top and an empty
text, and with an element without an id, whose key is generated.  The list and its items keep their
handles; the element without an id does not, nor does what is in it. -/
theorem import_agrees_with_patch_of_repeated_ids :
    let items := [Node.text "", .element "li" [⟨"id", "a"⟩] [.text "1"], .text "-",
      .element "p" [] [.element "i" [⟨"id", "x"⟩] []], .element "li" [⟨"id", "a"⟩] []]
    let f := Fragment.ofNodes [.text "t", .element "ul" [⟨"class", ""⟩, ⟨"id", "l"⟩] items]
    let dom := [Dom.Operation.createElement "main", .createElement "main"].foldl Dom.perform {}
    let doc : Document := { dom, compiler := PatchCompiler.new (fun _ => .ok f) {} }
    let imported := dom.perform (.parseInto doc.parser ⟨0, 0⟩ "s")
    let patched := doc.converge ⟨1, 0⟩ "s"
    let again := { doc with dom := imported }.converge ⟨0, 0⟩ "s"
    let list := Label.mk "ul" (some "l")
    let item := Label.mk "li" (some "a")
    Node.isPlainAll (f.forest Fragment.root) = true ∧
      (∀ n, ∀ id ∈ Node.authoredIdsAll (f.forest Fragment.root),
        Key.generated n ≠ Key.authored id) ∧
      patched.1 = .ok () ∧
      LiveNode.Rekeyed (LiveNode.shown true true (imported.forest ⟨0, 0⟩))
        (patched.2.dom.forest ⟨1, 0⟩) ∧
      again.1 = .ok () ∧
      (again.2.dom.chains ⟨0, 0⟩).filter (Dom.isAnchoredChain ["l", "a", "x", "a"]) =
        [([list], ⟨3, 0⟩), ([list, item], ⟨5, 0⟩), ([list, item], ⟨10, 0⟩)] ∧
      imported.isLive ⟨9, 0⟩ = true ∧ again.2.dom.isLive ⟨9, 0⟩ = false := by
  intro items f dom doc imported patched again list item
  have hdom : dom.Reachable := Dom.Reachable.empty.foldl_perform _
  have hdoc : doc.Reachable := .edit (.new rfl) hdom
  have hplain : Node.isPlainAll (f.forest Fragment.root) = true := by decide +kernel
  have hids : Node.authoredIdsAll (f.forest Fragment.root) = ["l", "a", "x", "a"] := by
    decide +kernel
  have hsupply : ∀ n, ∀ id ∈ Node.authoredIdsAll (f.forest Fragment.root),
      Key.generated n ≠ Key.authored id := by
    intro n id hid
    refine Key.generated_ne_authored n ?_
    rw [hids] at hid
    revert id
    decide
  have hparse : doc.parser "s" = .ok f := rfl
  have hhost : dom.isElement ⟨0, 0⟩ = true := by decide +kernel
  have hempty : dom.children ⟨0, 0⟩ = [] := by decide +kernel
  have htarget : doc.dom.isElement ⟨1, 0⟩ = true := by decide +kernel
  obtain ⟨added, imported', himport, hspec⟩ :=
    import_agrees_with_patch hdoc hparse hplain hdom hhost hempty htarget
  have himported : imported = imported' := by
    show dom.after ((Dom.parseInto doc.parser dom ⟨0, 0⟩ "s").map (·.2)) = imported'
    rw [himport]
    rfl
  rw [← himported] at hspec
  obtain ⟨-, hpatched, hagain⟩ := hspec (by decide +kernel)
  obtain ⟨hok, hrekeyed⟩ := hpatched (by decide +kernel)
  obtain ⟨hok', hchains⟩ := hagain (fun _ => hsupply) (by decide +kernel)
  rw [hids] at hchains
  exact ⟨hplain, hsupply, hok, hrekeyed, hok', hchains.trans (by decide +kernel),
    by decide +kernel, by decide +kernel⟩

end Document
end LiveMarkup
