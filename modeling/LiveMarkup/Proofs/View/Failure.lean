import LiveMarkup.Html.Parser
import LiveMarkup.Proofs.Dom.Tags
import LiveMarkup.Proofs.Patch.Calls
import LiveMarkup.Proofs.View.Display

/-!
# Calls that fail

A call of a view that fails leaves the tree alone.  Its source is compiled before the tree is
touched, and what was compiled is a balanced stream, so once the host is known to be an element
nothing can go wrong any more.  What the view itself holds is another matter: data is merged and a
template that compiles is put in place before the view is shown again, and they stay.

Main definitions:

- `Document.Refused`: why a patch of a document fails, and what it leaves.
- `View.Failed`: why a call of a view fails, and what it leaves.
- `View.Hosted`: the host of a view was created by one of the operations on the tree.

Main results:

- `Document.Reachable.refused_converge`, `View.failed_call`: patches and calls that fail.
- `View.hosted_create`, `View.Hosted.later`, `View.Hosted.call`: views have created hosts.
- `View.call_error_leaves_tree`: what a failed call leaves of the document, and why it fails.
- `View.error_leaves_view`: what a failed call leaves of the view.
-/

namespace LiveMarkup

/-! ## Documents -/

namespace Document

variable {doc : Document} {target : NodeId} {source : String}

/-- Why a patch of a document fails, and the document that it leaves.  Either the source has no
patch, and the kept patches stay in their order; or the target is no live element.  The tree is the
same in both cases. -/
inductive Refused (doc : Document) (target : NodeId) : ConvergeError → Document → Prop where
  | source {e : PatchError} {doc' : Document} (hdom : doc'.dom = doc.dom)
      (hentries : doc'.compiler.cache.entries = doc.compiler.cache.entries) :
      Refused doc target (.patch e) doc'
  | target {e : DomError} {doc' : Document} (hdom : doc'.dom = doc.dom)
      (hrequire : doc.dom.requireElement target = .error e) : Refused doc target (.dom e) doc'

theorem Refused.dom_eq {e : ConvergeError} {doc' : Document} (h : doc.Refused target e doc') :
    doc'.dom = doc.dom := by
  cases h with
  | source hdom _ => exact hdom
  | target hdom _ => exact hdom

/-- A patch below what is no live element gives the reason for that. -/
theorem converge_of_requireElement {patch : Patch} {e : DomError}
    (hmade : (doc.compiler.createPatch source).1 = .ok patch)
    (hrequire : doc.dom.requireElement target = .error e) :
    (doc.converge target source).1 = .error (.dom e) ∧
      (doc.converge target source).2.dom = doc.dom := by
  unfold converge
  generalize doc.compiler.createPatch source = made at hmade ⊢
  obtain ⟨result, compiler⟩ := made
  cases hmade
  simp [Patch.apply, Dom.patch, Dom.patchWith, hrequire]

/-- A patch of a document that fails was refused before the tree was touched. -/
theorem Reachable.refused_converge (h : doc.Reachable) {e : ConvergeError}
    (herror : (doc.converge target source).1 = .error e)
    (hsize : (doc.converge target source).2.dom.slots.size ≤ Dom.maxSlots) :
    doc.Refused target e (doc.converge target source).2 := by
  cases hmade : (doc.compiler.createPatch source).1 with
  | error e' =>
    rw [converge_of_error target hmade] at herror ⊢
    cases herror
    exact .source rfl (PatchCompiler.entries_createPatch_of_error hmade)
  | ok patch =>
    cases hrequire : doc.dom.requireElement target with
    | error e' =>
      obtain ⟨hresult, hdom⟩ := converge_of_requireElement hmade hrequire
      rw [hresult] at herror
      cases herror
      exact .target hdom hrequire
    | ok _ =>
      -- What was compiled or kept is a balanced stream, which cannot fail below an element.
      obtain ⟨f, hread⟩ := ((h.coherent.createPatch source).2 patch hmade).read_eq_ok
      have helement := Dom.requireElement_eq_ok_iff.mp hrequire
      rw [h.converge_eq_ok helement hread hsize] at herror
      cases herror

/-- What a patch of a document does to the tree is an operation or nothing. -/
theorem exists_operations_converge (doc : Document) (target : NodeId) (source : String) :
    ∃ later : List Dom.Operation,
      later.foldl Dom.perform doc.dom = (doc.converge target source).2.dom := by
  cases hmade : (doc.compiler.createPatch source).1 with
  | error e =>
    rw [converge_of_error target hmade]
    exact ⟨[], rfl⟩
  | ok patch =>
    rw [(converge_of_ok target hmade).1]
    exact ⟨[.patch target patch.instructions], rfl⟩

end Document

/-! ## Views -/

namespace View

variable {doc : Document} {v : View} {behaviour : Behaviour} {helpers : Registry}

/-- Why a call of a view with a host fails, and the document that it leaves: the template does not
compile, or a patch of the host is refused. -/
inductive Failed (doc : Document) (host : NodeId) : ViewError → Document → Prop where
  | template {e : TemplateError} : Failed doc host (.template e) doc
  | refused {e : ConvergeError} {doc' : Document} (h : doc.Refused host e doc') :
      Failed doc host (.ofConverge e) doc'

theorem Failed.dom_eq {host : NodeId} {e : ViewError} {doc' : Document}
    (h : Failed doc host e doc') : doc'.dom = doc.dom := by
  cases h with
  | template => rfl
  | refused h => exact h.dom_eq

theorem failed_patch (h : doc.Reachable) {source : String} {e : ViewError}
    (herror : (v.patch doc source).1 = .error e)
    (hsize : (v.patch doc source).2.dom.slots.size ≤ Dom.maxSlots) :
    Failed doc v.host e (v.patch doc source).2 := by
  rw [patch_eq] at herror hsize ⊢
  dsimp only at herror hsize ⊢
  cases hresult : (doc.converge v.host source).1 with
  | ok _ =>
    rw [hresult] at herror
    cases herror
  | error e' =>
    rw [hresult] at herror
    cases herror
    exact .refused (h.refused_converge hresult hsize)

/-- A call that fails has not compiled its template, or its patch was refused. -/
theorem failed_call (h : doc.Reachable) (v : View) (c : Call) {e : ViewError}
    (herror : (v.call behaviour helpers doc c).1 = .error e)
    (hsize : (v.call behaviour helpers doc c).2.2.dom.slots.size ≤ Dom.maxSlots) :
    Failed doc v.host e (v.call behaviour helpers doc c).2.2 := by
  cases c with
  | update data =>
    exact failed_patch (v := { v with model := Scope.merge v.model data }) h herror hsize
  | define source =>
    simp only [call, define] at herror hsize ⊢
    cases htemplate : v.template.define source with
    | error e' =>
      rw [htemplate] at herror
      cases herror
      exact .template
    | ok template =>
      rw [htemplate] at herror hsize
      exact failed_patch (v := { v with template }) h herror hsize
  | patch source => exact failed_patch h herror hsize
  | destroy =>
    simp only [call, destroy] at herror ⊢
    unfold Dom.remove at herror ⊢
    cases hlive : doc.dom.isLive v.host with
    | true =>
      rw [hlive] at herror
      cases herror
    | false =>
      rw [hlive] at herror
      cases herror
      exact .refused (.target rfl (Dom.requireElement_of_not_isLive hlive))

/-! ## Hosts -/

/-- The operations lead to the tree of the document, and one of them created the host. -/
structure Hosted (doc : Document) (v : View) (ops : List Dom.Operation) : Prop where
  dom_eq : ops.foldl Dom.perform {} = doc.dom
  host : ∃ earlier tag later, ops = earlier ++ .createElement tag :: later ∧
    v.host = ((earlier.foldl Dom.perform {}).createElement tag).1

/-- A new view has a created host. -/
theorem hosted_create {template : Template} {model : Scope} {config : ViewConfig}
    {ops : List Dom.Operation} (hops : ops.foldl Dom.perform {} = doc.dom)
    (hok : (create behaviour helpers doc template model config).1 = .ok v) :
    Hosted (create behaviour helpers doc template model config).2 v
      (ops ++ [.createElement config.sanitized.hostTag,
        .parseInto doc.parser v.host (template.render behaviour helpers model)]) := by
  unfold create at hok ⊢
  dsimp only at hok ⊢
  split at hok
  · next added dom hparse =>
    cases hok
    refine ⟨?_, ops, _, _, rfl, by rw [hops]⟩
    rw [List.foldl_append, hops]
    simp only [List.foldl_cons, List.foldl_nil, Dom.perform, hparse]
    rfl
  · cases hok

/-- Whatever operations follow, the host is the one that was created. -/
theorem Hosted.later {doc' : Document} {v' : View} {ops later : List Dom.Operation}
    (h : Hosted doc v ops) (hdom : later.foldl Dom.perform doc.dom = doc'.dom)
    (hhost : v'.host = v.host) : Hosted doc' v' (ops ++ later) := by
  obtain ⟨hops, earlier, tag, between, rfl, hcreated⟩ := h
  refine ⟨by rw [List.foldl_append, hops, hdom], earlier, tag, between ++ later, by simp, ?_⟩
  rw [hhost, hcreated]

/-- What a call does to the tree is an operation or nothing. -/
theorem exists_operations_call (doc : Document) (v : View) (c : Call) :
    ∃ later : List Dom.Operation,
      later.foldl Dom.perform doc.dom = (v.call behaviour helpers doc c).2.2.dom := by
  have hpatch : ∀ (v : View) (source : String), ∃ later : List Dom.Operation,
      later.foldl Dom.perform doc.dom = (v.patch doc source).2.dom := by
    intro v source
    rw [patch_eq]
    exact doc.exists_operations_converge v.host source
  cases c with
  | update data => exact hpatch { v with model := Scope.merge v.model data } _
  | define source =>
    simp only [call, define]
    split
    · exact ⟨[], rfl⟩
    · exact hpatch { v with template := _ } _
  | patch source => exact hpatch v source
  | destroy =>
    refine ⟨[.remove v.host], ?_⟩
    simp only [call, destroy, List.foldl_cons, List.foldl_nil, Dom.perform]
    cases doc.dom.remove v.host <;> rfl

/-- A call leaves the view its host. -/
theorem host_call (doc : Document) (v : View) (c : Call) :
    (v.call behaviour helpers doc c).2.1.host = v.host := by
  cases c with
  | update data => rfl
  | define source =>
    simp only [call, define]
    split <;> rfl
  | patch source => rfl
  | destroy =>
    simp only [call, destroy]
    split <;> rfl

theorem Hosted.call {ops : List Dom.Operation} (h : Hosted doc v ops) (c : Call) :
    ∃ later, Hosted (v.call behaviour helpers doc c).2.2 (v.call behaviour helpers doc c).2.1
      (ops ++ later) := by
  obtain ⟨later, hlater⟩ := exists_operations_call doc v c
  exact ⟨later, h.later hlater (host_call doc v c)⟩

/-- A live host is an element, if its slot was not freed as often as there are generations. -/
theorem Hosted.isElement {ops : List Dom.Operation} (h : Hosted doc v ops)
    (hsize : doc.dom.slots.size ≤ Dom.maxSlots)
    (hfreed : Dom.timesFreed v.host.index (Dom.history ops) < 2 ^ 32)
    (hlive : doc.dom.isLive v.host = true) : doc.dom.isElement v.host = true := by
  obtain ⟨hops, earlier, tag, later, rfl, hcreated⟩ := h
  rw [← hops] at hsize hlive ⊢
  rw [hcreated] at hfreed hlive ⊢
  rw [Dom.isElement_eq_tag?, Dom.tag?_of_isLive_created hsize hfreed hlive]
  rfl

/-! ## What failed calls leave of the document -/

/-- Of a view whose host was created in the tree of a document with any history, a call that fails
leaves the tree as it was, with the summary of the latest patch.  The template did not compile, or
the source has no patch and the kept patches stay in their order, or the host is no longer live. -/
theorem call_error_leaves_tree (run : Behaviour) (helpers : Registry) (h : doc.Reachable)
    {ops : List Dom.Operation} (hhosted : Hosted doc v ops)
    (hfreed : Dom.timesFreed v.host.index (Dom.history ops) < 2 ^ 32) (c : Call)
    (hsize : (v.call run helpers doc c).2.2.dom.slots.size ≤ Dom.maxSlots) {e : ViewError}
    (herror : (v.call run helpers doc c).1 = .error e) :
    (v.call run helpers doc c).2.2.dom = doc.dom ∧
      ((∃ template, e = .template template) ∨
        (∃ patch, e = .patch patch ∧ (v.call run helpers doc c).2.2.compiler.cache.entries =
          doc.compiler.cache.entries) ∨
        e = .dom (.unknownNode v.host) ∧ doc.dom.isLive v.host = false) := by
  have hfailed := failed_call h v c herror hsize
  have hdom := hfailed.dom_eq
  refine ⟨hdom, ?_⟩
  rw [hdom] at hsize
  generalize (v.call run helpers doc c).2.2 = after at hfailed ⊢
  cases hfailed with
  | template => exact .inl ⟨_, rfl⟩
  | refused hrefused =>
    cases hrefused with
    | source _ hentries => exact .inr (.inl ⟨_, rfl, hentries⟩)
    | target _ hrequire =>
      have hdead : doc.dom.isLive v.host = false := by
        rw [← Bool.not_eq_true]
        intro hlive
        rw [Dom.requireElement_eq_ok_iff.mpr (hhosted.isElement hsize hfreed hlive)] at hrequire
        cases hrequire
      rw [Dom.requireElement_of_not_isLive hdead] at hrequire
      cases hrequire
      exact .inr (.inr ⟨rfl, hdead⟩)

/-- After two sources were shown: data that renders to a comment, and a host that a patch around it
has freed. -/
theorem call_error_leaves_tree_of_comment_and_freed_host :
    let parser : MarkupParser := fun source =>
      .ok (.ofNodes (if source = "!" then [.comment "c"] else [.element "p" [] [.text source]]))
    let shown : Scope → Registry → String := fun data _ =>
      ((data.lookup "x").map Value.text).getD ""
    let v : View := ⟨⟨.function shown, .function shown, {}⟩, [("x", .str "a")], ⟨0, 0⟩⟩
    let made := (create Sample.run Sample.helpers (.new parser .structural) v.template v.model).2
    let doc := ((made.converge v.host "b").2.converge v.host "c").2
    let failed := v.call Sample.run Sample.helpers doc (.update [("x", .str "!")])
    let around : List Dom.Operation := [.createElement "div", .appendChild ⟨2, 1⟩ v.host,
      .patch ⟨2, 1⟩ []]
    let freed : Document := { doc with dom := around.foldl Dom.perform doc.dom }
    let refused := v.call Sample.run Sample.helpers freed (.define (.function shown))
    failed.1 = .error (.patch (.unhandledNodeKind .comment "@0")) ∧ failed.2.2.dom = doc.dom ∧
      failed.2.2.compiler.cache.entries = doc.compiler.cache.entries ∧
      doc.compiler.cache.entries.map (·.1) = ["c", "b"] ∧ v.markup doc = "<p>c</p>" ∧
      refused.1 = .error (.dom (.unknownNode v.host)) ∧ refused.2.2.dom = freed.dom := by
  intro parser shown v made doc failed around freed refused
  have hmade : made.Reachable := reachable_create (.new rfl) v.template v.model {}
  have hdoc : doc.Reachable := (hmade.converge v.host "b").converge v.host "c"
  have hfreed : freed.Reachable := .edit hdoc (hdoc.dom.foldl_perform around)
  let ops : List Dom.Operation := .createElement "div" :: .parseInto parser v.host "a" ::
    ["b", "c"].map fun text =>
      .patch v.host [.openElement "p" "@0" [], .text text, .closeElement "p"]
  have hhosted : Hosted doc v ops := ⟨by decide +kernel, [], "div", _, rfl, by decide +kernel⟩
  have haround : around.foldl Dom.perform doc.dom = freed.dom := by decide +kernel
  have herror : failed.1 = .error (.patch (.unhandledNodeKind .comment "@0")) := by decide +kernel
  have hrefused : refused.1 = .error (.dom (.unknownNode v.host)) := by decide +kernel
  have hleft := call_error_leaves_tree Sample.run Sample.helpers hdoc hhosted
    ((Dom.timesFreed_le_length _ _).trans_lt (by decide +kernel)) (.update [("x", .str "!")])
    (by decide +kernel) herror
  have hleft' := call_error_leaves_tree Sample.run Sample.helpers hfreed
    (hhosted.later haround rfl)
    ((Dom.timesFreed_le_length _ _).trans_lt (by decide +kernel)) (.define (.function shown))
    (by decide +kernel) hrefused
  have hfailed : v.call Sample.run Sample.helpers doc (.update [("x", .str "!")]) = failed := rfl
  have hrefused' : v.call Sample.run Sample.helpers freed (.define (.function shown)) =
      refused := rfl
  rw [hfailed] at hleft
  rw [hrefused'] at hleft'
  obtain ⟨hdom, ⟨_, htemplate⟩ | ⟨_, -, hentries⟩ | ⟨hdead, -⟩⟩ := hleft
  · cases htemplate
  · exact ⟨herror, hdom, hentries, by decide +kernel, by decide +kernel, hrefused, hleft'.1⟩
  · cases hdead

/-! ## What failed calls leave of the view -/

/-- Only compiling a template gives an error of a template. -/
theorem patch_ne_template (doc : Document) (v : View) (source : String) (e : TemplateError) :
    (v.patch doc source).1 ≠ .error (.template e) := by
  rw [patch_eq]
  dsimp only
  cases (doc.converge v.host source).1 with
  | ok _ => exact nofun
  | error e' => cases e' <;> exact nofun

/-- What a failed call leaves of the view itself.  Updating leaves the template, and the data is
merged into the model even if it cannot be shown.  Redefining leaves the model, and a template that
does not compile changes nothing at all.  In any case the view shows what it showed before. -/
theorem error_leaves_view (run : Behaviour) (helpers : Registry) (doc : Document) (v : View)
    (e : ViewError) :
    (∀ data, (v.update run helpers doc data).1 = .error e →
      let after := (v.update run helpers doc data).2
      after.1.template = v.template ∧ after.1.host = v.host ∧
        after.1.model = Scope.merge v.model data ∧
        (doc.Reachable → after.2.dom.slots.size ≤ Dom.maxSlots →
          after.1.markup after.2 = v.markup doc)) ∧
      ∀ source, (v.define run helpers doc source).1 = .error e →
        let after := (v.define run helpers doc source).2
        after.1.model = v.model ∧ after.1.host = v.host ∧
          (∀ template, e = .template template → after.1 = v ∧ after.2 = doc) ∧
          (doc.Reachable → after.2.dom.slots.size ≤ Dom.maxSlots →
            after.1.markup after.2 = v.markup doc) := by
  refine ⟨?_, ?_⟩
  · intro data herror
    refine ⟨rfl, rfl, rfl, ?_⟩
    intro h hsize
    have hfailed := failed_call h v (.update data) herror hsize
    exact congrArg (·.innerMarkup v.host) hfailed.dom_eq
  · intro source herror
    have hfailed := fun h => failed_call h v (.define source) herror
    simp only [call, define] at herror hfailed ⊢
    cases htemplate : v.template.define source with
    | error e' =>
      exact ⟨rfl, rfl, fun _ _ => ⟨rfl, rfl⟩, fun _ _ => rfl⟩
    | ok template =>
      rw [htemplate] at herror hfailed
      refine ⟨rfl, rfl, ?_, ?_⟩
      · rintro e' rfl
        exact absurd herror (patch_ne_template doc _ _ e')
      · intro h hsize
        exact congrArg (·.innerMarkup v.host) (hfailed h hsize).dom_eq

/-- Data that renders to a comment, and a block that is not closed, in a document with the parser of
HTML. -/
theorem error_leaves_view_of_comment_and_open_block :
    let template : Template := ⟨.text "<p>#\x7bx\x7d</p>", .segments [.piece (.literal "<p>"),
      .piece (.placeholder (.operand (.path ["x"]))), .piece (.literal "</p>")], {}⟩
    let v : View := ⟨template, [("x", .str "a")], ⟨0, 0⟩⟩
    let doc := (create Sample.run Sample.helpers (.new (HtmlConfig.parser {})) template v.model).2
    let updated := v.update Sample.run Sample.helpers doc [("x", .str "<!--c-->")]
    let defined := v.define Sample.run Sample.helpers doc (.text "\x7b\x7beach x\x7d\x7d")
    updated.1 = .error (.patch (.unhandledNodeKind .comment "@0.0")) ∧
      updated.2.1.template = v.template ∧ updated.2.1.model = [("x", .str "<!--c-->")] ∧
      updated.2.1.markup updated.2.2 = "<p>a</p>" ∧
      defined.1 = .error (.template (.malformedBlock (.unclosed "each") 0)) ∧
      defined.2.1 = v ∧ defined.2.2 = doc := by
  intro template v doc updated defined
  have hdoc : doc.Reachable := reachable_create (.new rfl) template v.model {}
  have hupdated : updated.1 = .error (.patch (.unhandledNodeKind .comment "@0.0")) := by
    decide +kernel
  have hdefined : defined.1 = .error (.template (.malformedBlock (.unclosed "each") 0)) := by
    decide +kernel
  have hleft := (error_leaves_view Sample.run Sample.helpers doc v _).1 _ hupdated
  have hleft' := (error_leaves_view Sample.run Sample.helpers doc v _).2 _ hdefined
  have hupdate : v.update Sample.run Sample.helpers doc [("x", .str "<!--c-->")] = updated := rfl
  have hdefine : v.define Sample.run Sample.helpers doc (.text "\x7b\x7beach x\x7d\x7d") =
      defined := rfl
  rw [hupdate] at hleft
  rw [hdefine] at hleft'
  obtain ⟨htemplate, -, hmodel, hmarkup⟩ := hleft
  obtain ⟨hview, hdocument⟩ := hleft'.2.2.1 _ rfl
  have hmerge : Scope.merge v.model [("x", .str "<!--c-->")] = [("x", .str "<!--c-->")] := rfl
  exact ⟨hupdated, htemplate, hmodel.trans hmerge,
    (hmarkup hdoc (by decide +kernel)).trans (by decide +kernel), hdefined, hview, hdocument⟩

/-- Data that renders to a comment, and a template with a comment, in a document with the parser of
HTML: both calls fail, the one has changed the model and the other one the template. -/
theorem error_changes_view :
    let template : Template := ⟨.text "<p>#\x7bx\x7d</p>", .segments [.piece (.literal "<p>"),
      .piece (.placeholder (.operand (.path ["x"]))), .piece (.literal "</p>")], {}⟩
    let v : View := ⟨template, [("x", .str "a")], ⟨0, 0⟩⟩
    let made := create Sample.run Sample.helpers (.new (HtmlConfig.parser {})) template v.model
    let updated := v.update Sample.run Sample.helpers made.2 [("x", .str "<!--c-->")]
    let defined := v.define Sample.run Sample.helpers made.2 (.text "<i>#\x7bx\x7d</i><!--d-->")
    made.1.map View.host = .ok v.host ∧
      updated.1 = .error (.patch (.unhandledNodeKind .comment "@0.0")) ∧
      updated.2.1.model ≠ v.model ∧
      defined.1 = .error (.patch (.unhandledNodeKind .comment "@1")) ∧
      defined.2.1.template.source.text? ≠ v.template.source.text? ∧
      defined.2.1.template.render Sample.run Sample.helpers v.model ≠
        v.template.render Sample.run Sample.helpers v.model := by
  intro template v made updated defined
  refine ⟨by decide +kernel, by decide +kernel, ?_, by decide +kernel, by decide +kernel,
    by decide +kernel⟩
  intro heq
  have htexts := congrArg (fun model : Scope => (model.lookup "x").map Value.text) heq
  revert htexts
  decide +kernel

end View
end LiveMarkup
