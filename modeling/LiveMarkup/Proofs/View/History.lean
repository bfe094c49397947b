import LiveMarkup.Proofs.Dom.Reachable
import LiveMarkup.Proofs.Patch.Coherence
import LiveMarkup.Proofs.Patch.Denotation
import LiveMarkup.Sample
import LiveMarkup.View.Basic

/-!
# Views after any history

A document may have any history: patches through its compiler, of this view and of others, and edits
of its tree by any other way.  What a view shows after a successful change does not depend on it: it
is the fragment of the source, without what has no place in a patch.

Main definitions:

- `Document.Reachable`: the documents after any history.

Main results:

- `Document.Reachable.coherent`, `Document.Reachable.dom`: what every history leaves intact.
- `Document.Reachable.converge_spec`: a successful patch leaves the nodes of the source.
- `View.markup_after_ok`: what a view shows after `patch`, `update` and `define`.
-/

namespace LiveMarkup

/-! ## Histories of documents -/

namespace Document

/-- The documents after any history that starts with an empty tree and no kept patches.  Direct
access to the tree may leave any reachable tree. -/
inductive Reachable : Document → Prop where
  | new {compiler : PatchCompiler} (hempty : compiler.cache.entries = []) :
      Reachable { compiler }
  | edit {doc : Document} {dom : Dom} (h : Reachable doc) (hdom : dom.Reachable) :
      Reachable { doc with dom }
  | converge {doc : Document} (h : Reachable doc) (target : NodeId) (source : String) :
      Reachable (doc.converge target source).2

variable {doc : Document}

/-- Without a patch for the source the tree does not change. -/
theorem converge_of_error (target : NodeId) {source : String} {e : PatchError}
    (h : (doc.compiler.createPatch source).1 = .error e) :
    doc.converge target source =
      (.error (.patch e), { doc with compiler := (doc.compiler.createPatch source).2 }) := by
  unfold converge
  generalize doc.compiler.createPatch source = made at h ⊢
  obtain ⟨result, compiler⟩ := made
  cases h
  rfl

/-- With a patch for the source the tree is patched. -/
theorem converge_of_ok (target : NodeId) {source : String} {patch : Patch}
    (h : (doc.compiler.createPatch source).1 = .ok patch) :
    (doc.converge target source).2 =
        { dom := (doc.dom.patch target patch.instructions).2
          compiler := (doc.compiler.createPatch source).2 } ∧
      ((doc.converge target source).1 = .ok () ↔
        (doc.dom.patch target patch.instructions).1 = .ok ()) := by
  unfold converge
  generalize doc.compiler.createPatch source = made at h ⊢
  obtain ⟨result, compiler⟩ := made
  cases h
  dsimp only [Patch.apply]
  generalize doc.dom.patch target patch.instructions = patched
  obtain ⟨result, dom⟩ := patched
  cases result with
  | error e =>
    refine ⟨rfl, ?_⟩
    constructor
    · intro hok
      cases hok
    · intro hok
      cases hok
  | ok _ => exact ⟨rfl, fun _ => rfl, fun _ => rfl⟩

theorem Reachable.dom (h : doc.Reachable) : doc.dom.Reachable := by
  induction h with
  | new hempty => exact .empty
  | edit _ hdom _ => exact hdom
  | @converge doc _ target source ih =>
    cases hmade : (doc.compiler.createPatch source).1 with
    | error e =>
      rw [converge_of_error target hmade]
      exact ih
    | ok patch =>
      rw [(converge_of_ok target hmade).1]
      exact ih.perform (.patch target patch.instructions)

theorem Reachable.coherent (h : doc.Reachable) : doc.compiler.Coherent := by
  induction h with
  | new hempty => exact PatchCompiler.coherent_of_empty hempty
  | edit _ _ ih => exact ih
  | @converge doc _ target source ih =>
    have hnext := (ih.createPatch source).1
    cases hmade : (doc.compiler.createPatch source).1 with
    | error e =>
      rw [converge_of_error target hmade]
      exact hnext
    | ok patch =>
      rw [(converge_of_ok target hmade).1]
      exact hnext

/-- After a patch that succeeds, the nodes below the target are those of the fragment of the source,
but for what has no place in a patch. -/
theorem Reachable.converge_spec (h : doc.Reachable) (target : NodeId) (source : String)
    (hok : (doc.converge target source).1 = .ok ())
    (hsize : (doc.converge target source).2.dom.slots.size ≤ Dom.maxSlots) :
    ∃ f, doc.parser source = .ok f ∧
      LiveNode.toNodes ((doc.converge target source).2.dom.forest target) =
        Node.shown doc.compiler.config.dropEmptyAttributes true (f.forest Fragment.root) := by
  cases hmade : (doc.compiler.createPatch source).1 with
  | error e =>
    rw [converge_of_error target hmade] at hok
    cases hok
  | ok patch =>
    obtain ⟨hdoc, hiff⟩ := converge_of_ok target hmade
    obtain ⟨f, drafts, n, hparse, hdraft, hassign⟩ :=
      (h.coherent.createPatch source).2 patch hmade
    obtain ⟨forest, hdenotes, hnodes⟩ := Draft.forest?_assign doc.compiler.supply n hdraft
    have htarget := Dom.isElement_of_patch_eq_ok (hiff.mp hok)
    rw [← hassign] at hdenotes
    rw [hdoc] at hsize ⊢
    have hwf := h.dom.wellFormed ((Dom.slots_size_le_patch _ _ _).trans hsize)
    have hforest := (hwf.forest_patch htarget hdenotes hsize).2
    exact ⟨f, hparse, by rw [hforest, hnodes]⟩

end Document

/-! ## Operations of views -/

namespace View

variable {doc doc' : Document} {run : Behaviour} {helpers : Registry}

/-- To create a view is to add a host and to fill it. -/
theorem reachable_create (h : doc.Reachable) (template : Template) (model : Scope)
    (config : ViewConfig) : (create run helpers doc template model config).2.Reachable := by
  have hhost := h.dom.perform (.createElement config.sanitized.hostTag)
  have hfilled := hhost.perform (.parseInto doc.parser
    (doc.dom.createElement config.sanitized.hostTag).1 (template.render run helpers model))
  unfold create
  dsimp only
  split
  · next added dom hparse =>
    simp only [Dom.perform, hparse] at hfilled
    exact .edit h hfilled
  · exact .edit h hhost

theorem reachable_patch (h : doc.Reachable) (v : View) (source : String) :
    (v.patch doc source).2.Reachable := by
  have hconverge := h.converge v.host source
  unfold patch
  split
  · next hdoc =>
    rw [hdoc] at hconverge
    exact hconverge
  · next hdoc =>
    rw [hdoc] at hconverge
    exact hconverge

theorem reachable_update (h : doc.Reachable) (v : View) (data : Scope) :
    (v.update run helpers doc data).2.2.Reachable :=
  reachable_patch h _ _

theorem reachable_define (h : doc.Reachable) (v : View) (source : TemplateSource) :
    (v.define run helpers doc source).2.2.Reachable := by
  unfold define
  split
  · exact h
  · exact reachable_patch h _ _

/-- To render a view is to append its host. -/
theorem reachable_render (h : doc.Reachable) (v : View) (parent : NodeId)
    (hok : v.render doc parent = .ok doc') : doc'.Reachable := by
  have happend := h.dom.perform (.appendChild parent v.host)
  unfold render at hok
  split at hok
  · cases hok
  · split at hok
    · cases hok
      exact h
    · split at hok
      · next dom hdom =>
        cases hok
        simp only [Dom.perform, hdom] at happend
        exact .edit h happend
      · cases hok

/-- To destroy a view is to take its host from its parent. -/
theorem reachable_destroy (h : doc.Reachable) (v : View) (hok : v.destroy doc = .ok doc') :
    doc'.Reachable := by
  have hremove := h.dom.perform (.remove v.host)
  unfold destroy at hok
  split at hok
  · next dom hdom =>
    cases hok
    simp only [Dom.perform, hdom] at hremove
    exact .edit h hremove
  · cases hok

/-! ## What a view shows -/

/-- After a patch that succeeds a view shows the fragment of the source. -/
theorem markup_patch (h : doc.Reachable) (v : View) {source : String}
    (hok : (v.patch doc source).1 = .ok ())
    (hsize : (v.patch doc source).2.dom.slots.size ≤ Dom.maxSlots) :
    ∃ f, doc.parser source = .ok f ∧ v.markup (v.patch doc source).2 =
      (f.pruned doc.compiler.config.dropEmptyAttributes).markup := by
  have hspec := h.converge_spec v.host source
  unfold patch at hok hsize ⊢
  generalize doc.converge v.host source = converged at hspec hok hsize ⊢
  obtain ⟨result, doc'⟩ := converged
  cases result with
  | error e => cases hok
  | ok _ =>
    obtain ⟨f, hparse, hnodes⟩ := hspec rfl hsize
    exact ⟨f, hparse, by rw [markup, Dom.innerMarkup, hnodes, ← Fragment.markup_pruned]⟩

/-- Whatever the history of a document, after a successful `patch`, `update` or `define` a view
shows exactly the fragment of the given source or of what its template renders from its model,
without texts at the top, empty texts and, if they are dropped, attributes with an empty value. -/
theorem markup_after_ok (run : Behaviour) (helpers : Registry) (h : doc.Reachable) (v : View) :
    (∀ source, (v.patch doc source).1 = .ok () →
      (v.patch doc source).2.dom.slots.size ≤ Dom.maxSlots →
      ∃ f, doc.parser source = .ok f ∧ v.markup (v.patch doc source).2 =
        (f.pruned doc.compiler.config.dropEmptyAttributes).markup) ∧
      (∀ data, let (result, v', doc') := v.update run helpers doc data
        result = .ok () → doc'.dom.slots.size ≤ Dom.maxSlots →
        ∃ f, doc.parser (v.template.render run helpers (Scope.merge v.model data)) = .ok f ∧
          v'.markup doc' = (f.pruned doc.compiler.config.dropEmptyAttributes).markup) ∧
      ∀ source, let (result, v', doc') := v.define run helpers doc source
        result = .ok () → doc'.dom.slots.size ≤ Dom.maxSlots →
        ∃ template f, v.template.define source = .ok template ∧
          doc.parser (template.render run helpers v.model) = .ok f ∧
          v'.markup doc' = (f.pruned doc.compiler.config.dropEmptyAttributes).markup := by
  refine ⟨fun source => markup_patch h v, ?_, ?_⟩
  · intro data hok hsize
    exact markup_patch h { v with model := Scope.merge v.model data } hok hsize
  · intro source
    unfold define
    cases htemplate : v.template.define source with
    | error e =>
      intro hok
      cases hok
    | ok template =>
      intro hok hsize
      obtain ⟨f, hparse, hmarkup⟩ := markup_patch h { v with template } hok hsize
      exact ⟨template, f, rfl, hparse, hmarkup⟩

/-- A host that keeps texts as they are, with a stray text below it and with a patch of the source
kept: the view shows the source, be it given, rendered from new data or by a new template. -/
theorem markup_after_ok_in_script :
    let fragment : String → Fragment := fun source => .ofNodes [.text source,
      .element "p" [⟨"class", ""⟩, ⟨"id", "k"⟩] [.text "", .text source], .element "br" [] []]
    let shown : TemplateSource := .function fun data _ => ((data.lookup "x").map Value.text).getD ""
    let v : View := { template := ⟨shown, .empty, {}⟩, model := [("x", .str "<")], host := ⟨0, 0⟩ }
    let compiler := PatchCompiler.new (fun source => .ok (fragment source)) .structural
    let dom := ({} : Dom).perform (.createElement "script")
    let kept := (Document.converge { dom, compiler } v.host "<").2
    let doc : Document := { kept with
      dom := (kept.dom.perform (.createText "stray")).perform (.appendChild ⟨0, 0⟩ ⟨4, 0⟩) }
    let patched := v.patch doc ">"
    let updated := v.update Sample.run Sample.helpers doc []
    let defined := v.define Sample.run Sample.helpers doc shown
    v.markup doc = "<p id=\"k\">&lt;</p><br>stray" ∧
      (patched.1 = .ok () ∧ v.markup patched.2 = "<p id=\"k\">&gt;</p><br>") ∧
      (updated.1 = .ok () ∧ updated.2.1.markup updated.2.2 = "<p id=\"k\"></p><br>") ∧
      (defined.1 = .ok () ∧ defined.2.1.markup defined.2.2 = "<p id=\"k\">&lt;</p><br>") := by
  intro fragment shown v compiler dom kept doc patched updated defined
  have hstart : Document.Reachable { dom, compiler } :=
    .edit (.new rfl) (Dom.Reachable.empty.perform _)
  have hdoc : doc.Reachable :=
    .edit (hstart.converge _ _) (((hstart.converge _ _).dom.perform _).perform _)
  have hpatched : patched.1 = .ok () := by decide +kernel
  have hupdated : updated.1 = .ok () := by decide +kernel
  have hdefined : defined.1 = .ok () := by decide +kernel
  obtain ⟨hpatch, hupdate, hdefine⟩ := markup_after_ok Sample.run Sample.helpers hdoc v
  obtain ⟨f, hf, hmarkup⟩ := hpatch ">" hpatched (by decide +kernel)
  obtain ⟨g, hg, hmarkup'⟩ := hupdate [] hupdated (by decide +kernel)
  obtain ⟨template, k, htemplate, hk, hmarkup''⟩ := hdefine shown hdefined (by decide +kernel)
  cases htemplate
  have hparse : doc.parser ">" = .ok (fragment ">") := by decide +kernel
  have hparse' : doc.parser "" = .ok (fragment "") := by decide +kernel
  have hparse'' : doc.parser "<" = .ok (fragment "<") := by decide +kernel
  rw [Except.ok.inj (hf.symm.trans hparse)] at hmarkup
  rw [Except.ok.inj (hg.symm.trans hparse')] at hmarkup'
  rw [Except.ok.inj (hk.symm.trans hparse'')] at hmarkup''
  exact ⟨by decide +kernel, ⟨hpatched, hmarkup.trans (by decide +kernel)⟩,
    ⟨hupdated, hmarkup'.trans (by decide +kernel)⟩, hdefined, hmarkup''.trans (by decide +kernel)⟩

end View
end LiveMarkup
