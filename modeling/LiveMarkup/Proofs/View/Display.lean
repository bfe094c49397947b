import LiveMarkup.Proofs.Dom.Import
import LiveMarkup.Proofs.Dom.Outside
import LiveMarkup.Proofs.Patch.Calls
import LiveMarkup.Proofs.View.History

/-!
# What a view shows

What a call of a view returns and what the view shows after it depend only on what the view showed
before, and on the parser and the settings of its document.  The rest of the document, its free slots
and the patches that it keeps do not count, and nothing apart from the host of the view changes.

Main definitions:

- `PatchConfig.read`: the fragment of a source that has a patch, or why it has none.
- `Display`, `View.display`: what a view shows.
- `View.Call`, `View.call`, `View.run`: the calls of a view, and sequences of them.
- `Display.call`, `Display.run`: what calls return and show, without a document.
- `View.Served`: what a call does.

Main results:

- `PatchCompiler.Coherent.createPatch_of_read_error`, `PatchCompiler.createPatch_of_read_ok`: whether
  a source has a patch does not depend on what is kept.
- `Document.Reachable.spares_converge`: a patch of a document spares everything apart from its
  target.
- `View.display_create`: what a new view shows.
- `View.served_call`: what each call of a view does.
- `View.run_eq`: the reports of a sequence of calls.
-/

namespace LiveMarkup

/-! ## What becomes of a source -/

/-- The fragment of a source that has a patch, or why it has none. -/
def PatchConfig.read (config : PatchConfig) (parser : MarkupParser) (source : String) :
    Except PatchError Fragment :=
  match parser source with
  | .error e => .error (.parse e)
  | .ok f =>
    match f.draft config with
    | .error e => .error e
    | .ok _ => .ok f

/-- What is read of a source is what was parsed. -/
theorem PatchConfig.parse_of_read_ok {config : PatchConfig} {parser : MarkupParser}
    {source : String} {f : Fragment} (h : config.read parser source = .ok f) :
    parser source = .ok f := by
  unfold read at h
  split at h
  · cases h
  · next parsed hparse =>
    split at h
    · cases h
    · cases h
      exact hparse

namespace PatchCompiler

variable {c : PatchCompiler} {source : String}

/-- A source that cannot be compiled has no patch. -/
theorem read_of_compileStack_error {e : PatchError} (h : (c.compileStack source).1 = .error e) :
    c.config.read c.parser source = .error e := by
  unfold compileStack at h
  unfold PatchConfig.read
  dsimp only at h
  cases hparse : c.parser source with
  | error parseError =>
    rw [hparse] at h
    cases h
    rfl
  | ok f =>
    rw [hparse] at h
    dsimp only at h ⊢
    cases hdraft : f.draft c.config with
    | error draftError =>
      rw [hdraft] at h
      cases h
      rfl
    | ok drafts =>
      rw [hdraft] at h
      cases h

/-- A source from which instructions are made has a patch. -/
theorem CompiledFrom.read_eq_ok {instructions : List Instruction}
    (h : c.CompiledFrom source instructions) : ∃ f, c.config.read c.parser source = .ok f := by
  obtain ⟨f, drafts, n, hparse, hdraft, -⟩ := h
  exact ⟨f, by simp only [PatchConfig.read, hparse, hdraft]⟩

/-- A request fails only if the source has no patch, whatever is kept. -/
theorem read_of_createPatch_error {e : PatchError} (h : (c.createPatch source).1 = .error e) :
    c.config.read c.parser source = .error e := by
  have hrequest := c.request_createPatch source
  generalize c.createPatch source = made at h hrequest
  cases hrequest with
  | kept => cases h
  | failed _ hcompile =>
    cases h
    exact read_of_compileStack_error hcompile
  | compiled => cases h

/-- A source without a patch is refused, whatever is kept. -/
theorem Coherent.createPatch_of_read_error (h : c.Coherent) {e : PatchError}
    (hread : c.config.read c.parser source = .error e) : (c.createPatch source).1 = .error e := by
  cases hmade : (c.createPatch source).1 with
  | error e' =>
    rw [read_of_createPatch_error hmade] at hread
    cases hread
    rfl
  | ok patch =>
    obtain ⟨f, hf⟩ := ((h.createPatch source).2 patch hmade).read_eq_ok
    rw [hf] at hread
    cases hread

/-- A source with a patch gets one, whatever is kept. -/
theorem createPatch_of_read_ok {f : Fragment} (hread : c.config.read c.parser source = .ok f) :
    ∃ patch, (c.createPatch source).1 = .ok patch := by
  cases hmade : (c.createPatch source).1 with
  | error e =>
    rw [read_of_createPatch_error hmade] at hread
    cases hread
  | ok patch => exact ⟨patch, rfl⟩

end PatchCompiler

/-! ## Documents -/

namespace Document

variable {doc : Document} {target : NodeId} {source : String}

theorem slots_size_le_converge (doc : Document) (target : NodeId) (source : String) :
    doc.dom.slots.size ≤ (doc.converge target source).2.dom.slots.size := by
  cases hmade : (doc.compiler.createPatch source).1 with
  | error e => rw [converge_of_error target hmade]
  | ok patch =>
    rw [(converge_of_ok target hmade).1]
    exact Dom.slots_size_le_patch _ _ _

theorem sameMaking_converge (doc : Document) (target : NodeId) (source : String) :
    doc.compiler.SameMaking (doc.converge target source).2.compiler := by
  have hsame := doc.compiler.sameMaking_createPatch source
  cases hmade : (doc.compiler.createPatch source).1 with
  | error e =>
    rw [converge_of_error target hmade]
    exact hsame
  | ok patch =>
    rw [(converge_of_ok target hmade).1]
    exact hsame

/-- A patch of a document spares everything apart from its target. -/
theorem Reachable.spares_converge (h : doc.Reachable) (target : NodeId) (source : String)
    (hsize : (doc.converge target source).2.dom.slots.size ≤ Dom.maxSlots) :
    doc.dom.Spares (doc.converge target source).2.dom target := by
  have hwf := h.dom.wellFormed ((slots_size_le_converge doc target source).trans hsize)
  cases hmade : (doc.compiler.createPatch source).1 with
  | error e =>
    rw [converge_of_error target hmade]
    exact (Dom.SameOutside.refl _ _).spares hwf hwf
  | ok patch =>
    rw [(converge_of_ok target hmade).1] at hsize ⊢
    exact (hwf.sameOutside_patch target _ hsize).spares hwf (hwf.patch target _ hsize)

/-- Below a live element every source that has a patch can be shown. -/
theorem Reachable.converge_eq_ok (h : doc.Reachable) (htarget : doc.dom.isElement target = true)
    {f : Fragment} (hread : doc.compiler.config.read doc.parser source = .ok f)
    (hsize : (doc.converge target source).2.dom.slots.size ≤ Dom.maxSlots) :
    (doc.converge target source).1 = .ok () := by
  have hwf := h.dom.wellFormed ((slots_size_le_converge doc target source).trans hsize)
  obtain ⟨patch, hmade⟩ := PatchCompiler.createPatch_of_read_ok hread
  obtain ⟨hdoc, hiff⟩ := converge_of_ok target hmade
  obtain ⟨_, drafts, n, -, hdraft, hassign⟩ := (h.coherent.createPatch source).2 patch hmade
  obtain ⟨forest, hdenotes, -⟩ := Draft.forest?_assign doc.compiler.supply n hdraft
  rw [← hassign] at hdenotes
  rw [hdoc] at hsize
  exact hiff.mpr (hwf.forest_patch htarget hdenotes hsize).1

end Document

/-! ## What a view shows -/

/-- What a view shows: its template, its model and the markup below its host. -/
structure Display where
  template : Template
  model : Scope
  markup : String

/-- What a call of a view returned, and what the view shows after it. -/
structure Report where
  result : Except ViewError Unit
  display : Display

namespace View

/-- What a view shows. -/
def display (doc : Document) (v : View) : Display :=
  ⟨v.template, v.model, v.markup doc⟩

/-- A call of a view. -/
inductive Call where
  | update (data : Scope)
  | define (source : TemplateSource)
  | patch (source : String)
  | destroy

/-- The result of a call of a view, the view and the document after it. -/
def call (run : Behaviour) (helpers : Registry) (doc : Document) (v : View) :
    Call → Except ViewError Unit × View × Document
  | .update data => v.update run helpers doc data
  | .define source => v.define run helpers doc source
  | .patch source =>
    let (result, doc) := v.patch doc source
    (result, v, doc)
  | .destroy =>
    match v.destroy doc with
    | .ok doc => (.ok (), v, doc)
    | .error e => (.error e, v, doc)

/-- The reports of a sequence of calls of a view, the view and the document after them. -/
def run (behaviour : Behaviour) (helpers : Registry) (doc : Document) (v : View) :
    List Call → List Report × View × Document
  | [] => ([], v, doc)
  | c :: rest =>
    let (result, v, doc) := v.call behaviour helpers doc c
    let (reports, after) := run behaviour helpers doc v rest
    (⟨result, v.display doc⟩ :: reports, after)

end View

namespace Display

variable (config : PatchConfig) (parser : MarkupParser)

/-- To show a source is to replace the markup; a source without a patch changes nothing. -/
def put (d : Display) (source : String) : Report :=
  match config.read parser source with
  | .error e => ⟨.error (.patch e), d⟩
  | .ok f => ⟨.ok (), { d with markup := (f.pruned config.dropEmptyAttributes).markup }⟩

/-- What a call returns, and what is shown after it. -/
def call (behaviour : Behaviour) (helpers : Registry) (d : Display) : View.Call → Report
  | .update data =>
    let model := Scope.merge d.model data
    put config parser { d with model } (d.template.render behaviour helpers model)
  | .define source =>
    match d.template.define source with
    | .error e => ⟨.error (.template e), d⟩
    | .ok template =>
      put config parser { d with template } (template.render behaviour helpers d.model)
  | .patch source => put config parser d source
  | .destroy => ⟨.ok (), d⟩

/-- The reports of a sequence of calls. -/
def run (behaviour : Behaviour) (helpers : Registry) (d : Display) : List View.Call → List Report
  | [] => []
  | c :: rest =>
    let report := d.call config parser behaviour helpers c
    report :: run behaviour helpers report.display rest

end Display

namespace View

variable {doc : Document} {v : View} {behaviour : Behaviour} {helpers : Registry}

/-! ## New views -/

/-- To create a view asks for no patch. -/
theorem compiler_create (doc : Document) (template : Template) (model : Scope)
    (config : ViewConfig) :
    (create behaviour helpers doc template model config).2.compiler = doc.compiler := by
  unfold create
  dsimp only
  split <;> rfl

/-- What a new view shows is told by its template, its model and the tag of its host. -/
theorem display_create (h : doc.Reachable) (template : Template) (model : Scope)
    (config : ViewConfig) (hok : (create behaviour helpers doc template model config).1 = .ok v)
    (hsize : (create behaviour helpers doc template model config).2.dom.slots.size ≤
      Dom.maxSlots) :
    ∃ f, doc.parser (template.render behaviour helpers model) = .ok f ∧
      v.display (create behaviour helpers doc template model config).2 =
        ⟨template, model, Node.markupAll (Markup.isRawText config.sanitized.hostTag)
          (LiveNode.toNodes (Node.liveAll (f.forest Fragment.root)))⟩ := by
  have hcreate := fun hwf => Dom.WellFormed.createElement_spec (d := doc.dom) hwf
    config.sanitized.hostTag
  have hcreated := Dom.slots_size_le_perform doc.dom (.createElement config.sanitized.hostTag)
  unfold create at hok hsize ⊢
  rw [Dom.perform] at hcreated
  generalize doc.dom.createElement config.sanitized.hostTag = created at *
  obtain ⟨host, dom⟩ := created
  dsimp only at *
  cases hparse : Dom.parseInto doc.parser dom host (template.render behaviour helpers model) with
  | error e =>
    rw [hparse] at hok
    cases hok
  | ok result =>
    obtain ⟨added, filled⟩ := result
    rw [hparse] at hok hsize
    cases hok
    have hbound := (Dom.slots_size_le_parseInto hparse).trans hsize
    obtain ⟨hwf, hdata, hempty⟩ := hcreate (h.dom.wellFormed (hcreated.trans hbound)) hbound
    obtain ⟨f, hf, hkept, hforest⟩ := hwf.parseInto_spec hparse hsize
    have hkeeps : filled.keepsText host = Markup.isRawText config.sanitized.hostTag := by
      simp only [Dom.keepsText, Dom.tag?, Dom.element?, hkept.trans hdata, Option.map_some]
    refine ⟨f, hf, ?_⟩
    rw [display, markup, Dom.innerMarkup, hkeeps, hforest, hempty]
    rfl

/-! ## One call of a view -/

/-- What a call of a view does: the document keeps its parser and its settings, the view keeps its
host, and everything apart from the host is spared.  Of what the call returns and of what is then
shown there is a report. -/
structure Served (doc : Document) (v : View) (after : Except ViewError Unit × View × Document)
    (report : Report) : Prop where
  reachable : after.2.2.Reachable
  making : doc.compiler.SameMaking after.2.2.compiler
  host : after.2.1.host = v.host
  spares : doc.dom.Spares after.2.2.dom v.host
  report_eq : ⟨after.1, after.2.1.display after.2.2⟩ = report

namespace Served

variable {after : Except ViewError Unit × View × Document} {report : Report}

theorem parser_eq (h : Served doc v after report) : after.2.2.parser = doc.parser :=
  h.making.parser

/-- The host stays a live element. -/
theorem isElement (h : Served doc v after report) (hhost : doc.dom.isElement v.host = true) :
    after.2.2.dom.isElement after.2.1.host = true := by
  rw [h.host, Dom.isElement_congr h.spares.data?_target, hhost]

end Served

theorem patch_eq (doc : Document) (v : View) (source : String) :
    v.patch doc source = ((doc.converge v.host source).1.mapError ViewError.ofConverge,
      (doc.converge v.host source).2) := by
  unfold patch
  generalize doc.converge v.host source = converged
  obtain ⟨_ | _, doc'⟩ := converged
  · rfl
  · rfl

/-- No call takes a slot away. -/
theorem slots_size_le_call (doc : Document) (v : View) (c : Call) :
    doc.dom.slots.size ≤ (v.call behaviour helpers doc c).2.2.dom.slots.size := by
  have hpatch : ∀ (v : View) (source : String),
      doc.dom.slots.size ≤ (v.patch doc source).2.dom.slots.size := by
    intro v source
    rw [patch_eq]
    exact Document.slots_size_le_converge doc v.host source
  cases c with
  | update data => exact hpatch { v with model := Scope.merge v.model data } _
  | define source =>
    simp only [call, define]
    split
    · exact Nat.le_refl _
    · exact hpatch { v with template := _ } _
  | patch source => exact hpatch v source
  | destroy =>
    have hremove := Dom.slots_size_le_perform doc.dom (.remove v.host)
    simp only [Dom.perform, Dom.after] at hremove
    simp only [call, destroy]
    cases hdom : doc.dom.remove v.host with
    | error e => exact Nat.le_refl _
    | ok dom =>
      rw [hdom] at hremove
      exact hremove

theorem slots_size_le_run (doc : Document) (v : View) (calls : List Call) :
    doc.dom.slots.size ≤ (v.run behaviour helpers doc calls).2.2.dom.slots.size := by
  induction calls generalizing doc v with
  | nil => exact Nat.le_refl _
  | cons c rest ih => exact (slots_size_le_call doc v c).trans (ih _ _)

/-- To patch a view is to put the source on display. -/
theorem served_patch (h : doc.Reachable) (v : View) (hhost : doc.dom.isElement v.host = true)
    (source : String) (hsize : (v.patch doc source).2.dom.slots.size ≤ Dom.maxSlots) :
    Served doc v ((v.patch doc source).1, v, (v.patch doc source).2)
      ((v.display doc).put doc.compiler.config doc.parser source) where
  reachable := reachable_patch h v source
  making := by
    rw [patch_eq]
    exact doc.sameMaking_converge v.host source
  host := rfl
  spares := by
    rw [patch_eq] at hsize ⊢
    exact h.spares_converge v.host source hsize
  report_eq := by
    unfold Display.put
    cases hread : doc.compiler.config.read doc.parser source with
    | error e =>
      have hmade := h.coherent.createPatch_of_read_error hread
      rw [patch_eq, Document.converge_of_error v.host hmade]
      rfl
    | ok f =>
      have hok : (v.patch doc source).1 = .ok () := by
        rw [patch_eq] at hsize ⊢
        rw [h.converge_eq_ok hhost hread hsize]
        rfl
      obtain ⟨parsed, hparse, hmarkup⟩ := markup_patch h v hok hsize
      have hparsed : parsed = f :=
        Except.ok.inj (hparse.symm.trans (PatchConfig.parse_of_read_ok hread))
      rw [hok, display, hmarkup, hparsed]
      rfl

/-- A view whose host was not touched by a call shows what it showed. -/
theorem display_congr {doc' : Document} {v' : View} (hview : v' = v)
    (hdata : doc'.dom.data? v.host = doc.dom.data? v.host)
    (hforest : doc'.dom.forest v.host = doc.dom.forest v.host) :
    v'.display doc' = v.display doc := by
  subst hview
  have hkeeps : doc'.dom.keepsText v'.host = doc.dom.keepsText v'.host := by
    simp only [Dom.keepsText, Dom.tag?, Dom.element?, hdata]
  simp only [display, markup, Dom.innerMarkup, hforest, hkeeps]

/-- A change that leaves the document as it is. -/
theorem served_of_eq (h : doc.Reachable) (v : View) (result : Except ViewError Unit)
    (hsize : doc.dom.slots.size ≤ Dom.maxSlots) :
    Served doc v (result, v, doc) ⟨result, v.display doc⟩ where
  reachable := h
  making := ⟨rfl, rfl, rfl⟩
  host := rfl
  spares :=
    have hwf := h.dom.wellFormed hsize
    (Dom.SameOutside.refl _ _).spares hwf hwf
  report_eq := rfl

/-- Below its host, a view shows the same after the host was taken from its parent. -/
theorem served_destroy (h : doc.Reachable) (v : View) (hhost : doc.dom.isElement v.host = true)
    (hsize : doc.dom.slots.size ≤ Dom.maxSlots) :
    Served doc v (v.call behaviour helpers doc .destroy) ⟨.ok (), v.display doc⟩ := by
  have hwf := h.dom.wellFormed hsize
  have hdestroy : v.destroy doc = .ok { doc with dom := doc.dom.detach v.host } := by
    simp only [destroy, Dom.remove, Dom.isLive_of_isElement hhost, if_true]
  simp only [call, hdestroy]
  refine ⟨reachable_destroy h v hdestroy, ⟨rfl, rfl, rfl⟩, rfl, hwf.spares_detach v.host, ?_⟩
  rw [Report.mk.injEq]
  exact ⟨rfl, display_congr rfl (Dom.data?_detach hwf _ _) (hwf.forest_detach fun _ => rfl)⟩

/-- What a call does, for the view itself and for everything apart from its host. -/
theorem served_call (h : doc.Reachable) (v : View) (hhost : doc.dom.isElement v.host = true)
    (c : Call) (hsize : (v.call behaviour helpers doc c).2.2.dom.slots.size ≤ Dom.maxSlots) :
    Served doc v (v.call behaviour helpers doc c)
      ((v.display doc).call doc.compiler.config doc.parser behaviour helpers c) := by
  cases c with
  | update data =>
    have hserved := served_patch h { v with model := Scope.merge v.model data } hhost _ hsize
    exact ⟨hserved.reachable, hserved.making, hserved.host, hserved.spares, hserved.report_eq⟩
  | define source =>
    simp only [call, define, Display.call, display] at hsize ⊢
    cases htemplate : v.template.define source with
    | error e =>
      rw [htemplate] at hsize
      exact served_of_eq h v _ hsize
    | ok template =>
      rw [htemplate] at hsize
      have hserved := served_patch h { v with template } hhost _ hsize
      exact ⟨hserved.reachable, hserved.making, hserved.host, hserved.spares, hserved.report_eq⟩
  | patch source => exact served_patch h v hhost source hsize
  | destroy => exact served_destroy h v hhost ((slots_size_le_call doc v _).trans hsize)

/-- The reports of a sequence of calls are told by what the view shows at first. -/
theorem run_eq (h : doc.Reachable) (v : View) (hhost : doc.dom.isElement v.host = true)
    (calls : List Call)
    (hsize : (v.run behaviour helpers doc calls).2.2.dom.slots.size ≤ Dom.maxSlots) :
    (v.run behaviour helpers doc calls).1 =
      (v.display doc).run doc.compiler.config doc.parser behaviour helpers calls := by
  induction calls generalizing doc v with
  | nil => rfl
  | cons c rest ih =>
    have hstep := (slots_size_le_run (v.call behaviour helpers doc c).2.2
      (v.call behaviour helpers doc c).2.1 rest).trans hsize
    have hserved := served_call h v hhost c hstep
    have hrest := ih hserved.reachable _ (hserved.isElement hhost) hsize
    rw [hserved.making.config, hserved.parser_eq] at hrest
    rw [run, Display.run, ← hserved.report_eq, ← hrest]

end View
end LiveMarkup
