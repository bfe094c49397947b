import LiveMarkup.Html.Parser
import LiveMarkup.Proofs.Dom.Import
import LiveMarkup.Proofs.View.History

/-!
# Views that cannot be made

The host of a new view is made before the rendered markup is parsed.  A template that does not
compile leaves the document alone; markup that the parser refuses leaves one node more, the empty
host, which has no parent and which no view and no result names.

Main definitions:

- `View.LeftHost`: a document with an empty host left behind.

Main results:

- `View.create_error_iff`: a view is refused exactly if its markup is.
- `View.leftHost_create`: what a view that is refused leaves.
- `View.ofSource_error`: why a view of a source cannot be made, and what is left.
-/

namespace LiveMarkup

namespace Dom

variable {d : Dom}

/-- Beside the old nodes, only the new one is live. -/
theorem isLive_alloc_iff (h : d.FreeExact) (data : LiveData)
    (hsize : (d.alloc data).2.slots.size ≤ maxSlots) (x : NodeId) :
    (d.alloc data).2.isLive x = true ↔ x = (d.alloc data).1 ∨ d.isLive x = true := by
  rw [isLive_iff, isLive_iff, entry?_alloc h data hsize]
  split
  · next heq => simp [heq]
  · next hne => simp [hne]

/-- A new node adds one to the size. -/
theorem size_alloc (h : d.FreeExact) (data : LiveData)
    (hsize : (d.alloc data).2.slots.size ≤ maxSlots) : (d.alloc data).2.size = d.size + 1 := by
  have hlive : {x | (d.alloc data).2.isLive x = true} =
      insert (d.alloc data).1 {x | d.isLive x = true} :=
    Set.ext fun x => isLive_alloc_iff h data hsize x
  have hfresh : (d.alloc data).1 ∉ {x | d.isLive x = true} := by
    simp [isLive_alloc_fresh h data hsize]
  have hcard := (h.alloc data).encard_isLive
  rw [hlive, Set.encard_insert_of_notMem hfresh, h.encard_isLive] at hcard
  exact_mod_cast hcard.symm

end Dom

namespace View

variable {doc : Document} {behaviour : Behaviour} {helpers : Registry}

/-- A document with an empty host of a tag left behind: the patches that are kept and every live
node are the same, and there is one live node more, without parent and children. -/
structure LeftHost (doc doc' : Document) (tag : String) : Prop where
  compiler : doc'.compiler = doc.compiler
  unchanged : doc.dom.Unchanged doc'.dom
  size : doc'.dom.size = doc.dom.size + 1
  host : ∃ host, doc.dom.isLive host = false ∧
    doc'.dom.entry? host = some { data := .element { tag } } ∧
    ∀ x, doc'.dom.isLive x = true ↔ x = host ∨ doc.dom.isLive x = true

/-- A new host below which nothing was put is left behind. -/
theorem leftHost_createElement (h : doc.Reachable) (tag : String)
    (hsize : (doc.dom.createElement tag).2.slots.size ≤ Dom.maxSlots) :
    LeftHost doc { doc with dom := (doc.dom.createElement tag).2 } tag :=
  have hfree := (h.dom.wellFormed ((Dom.slots_size_le_alloc ..).trans hsize)).toFreeExact
  { compiler := rfl
    unchanged := Dom.unchanged_alloc hfree hsize
    size := Dom.size_alloc hfree _ hsize
    host := ⟨_, Dom.isLive_alloc_fresh hfree _ hsize,
      (Dom.entry?_alloc hfree _ hsize _).trans (if_pos rfl), Dom.isLive_alloc_iff hfree _ hsize⟩ }

/-- A view is made if its markup can be parsed.  If not, the host is there all the same. -/
theorem create_eq (h : doc.Reachable) (template : Template) (model : Scope) (config : ViewConfig)
    {host : NodeId} {dom : Dom}
    (hhost : doc.dom.createElement config.sanitized.hostTag = (host, dom))
    (hsize : dom.slots.size ≤ Dom.maxSlots) :
    create behaviour helpers doc template model config =
      match doc.parser (template.render behaviour helpers model) with
      | .error e => (.error (.dom (.parse e)), { doc with dom })
      | .ok f =>
        (.ok { template, model, host }, { doc with dom := (dom.importFragment host f).2 }) := by
  have hgrow := Dom.slots_size_le_alloc doc.dom (.element { tag := config.sanitized.hostTag })
  have hspec := fun hwf => Dom.WellFormed.createElement_spec (d := doc.dom) hwf
    config.sanitized.hostTag
  rw [← Dom.createElement] at hgrow
  rw [hhost] at hgrow hspec
  have hdata := (hspec (h.dom.wellFormed (hgrow.trans hsize)) hsize).2.1
  have hrequire : dom.requireElement host = .ok () := by
    rw [Dom.requireElement, hdata]
  unfold create Dom.parseInto
  rw [hhost]
  dsimp only
  rw [hrequire]
  cases doc.parser (template.render behaviour helpers model) <;> rfl

/-- A view cannot be made exactly if its markup is refused. -/
theorem create_error_iff (h : doc.Reachable) (template : Template) (model : Scope)
    (config : ViewConfig)
    (hsize : (doc.dom.createElement config.sanitized.hostTag).2.slots.size ≤ Dom.maxSlots)
    {e : ViewError} :
    (create behaviour helpers doc template model config).1 = .error e ↔
      ∃ refused, doc.parser (template.render behaviour helpers model) = .error refused ∧
        e = .dom (.parse refused) := by
  rw [create_eq h template model config rfl hsize]
  cases doc.parser (template.render behaviour helpers model) with
  | error refused => simp [eq_comm]
  | ok f => simp

/-- What a view that cannot be made leaves: its host, empty and without parent. -/
theorem leftHost_create (h : doc.Reachable) (template : Template) (model : Scope)
    (config : ViewConfig)
    (hsize : (doc.dom.createElement config.sanitized.hostTag).2.slots.size ≤ Dom.maxSlots)
    {e : ViewError}
    (herror : (create behaviour helpers doc template model config).1 = .error e) :
    LeftHost doc (create behaviour helpers doc template model config).2
      config.sanitized.hostTag := by
  rw [create_eq h template model config rfl hsize] at herror ⊢
  cases hparse : doc.parser (template.render behaviour helpers model) with
  | error refused => exact leftHost_createElement h _ hsize
  | ok f =>
    rw [hparse] at herror
    cases herror

/-- A view of a source cannot be made if the template does not compile, which leaves the document
as it was, or if the rendered markup is refused, which leaves an empty host. -/
theorem ofSource_error (h : doc.Reachable) (settings : TemplateConfig) (source : TemplateSource)
    (model : Scope) (config : ViewConfig)
    (hsize : (doc.dom.createElement config.sanitized.hostTag).2.slots.size ≤ Dom.maxSlots)
    {e : ViewError} {doc' : Document}
    (herror : ofSource behaviour helpers settings doc source model config = (.error e, doc')) :
    (∃ refused, Template.compile settings source = .error refused ∧ e = .template refused ∧
        doc' = doc) ∨
      ∃ template refused, Template.compile settings source = .ok template ∧
        doc.parser (template.render behaviour helpers model) = .error refused ∧
        e = .dom (.parse refused) ∧ LeftHost doc doc' config.sanitized.hostTag := by
  unfold ofSource at herror
  cases htemplate : Template.compile settings source with
  | error refused =>
    rw [htemplate] at herror
    cases herror
    exact .inl ⟨refused, rfl, rfl, rfl⟩
  | ok template =>
    rw [htemplate] at herror
    dsimp only at herror
    have hresult := congrArg Prod.fst herror
    obtain ⟨refused, hparse, he⟩ := (create_error_iff h template model config hsize).mp hresult
    have hleft := leftHost_create h template model config hsize hresult
    rw [herror] at hleft
    exact .inr ⟨template, refused, rfl, hparse, he, hleft⟩

/-- One element too many for the nesting limit, in a document without nodes. -/
theorem ofSource_error_of_nesting :
    let doc : Document := .new (HtmlConfig.parser { maxDepth := 1 })
    let config : ViewConfig := {}
    let made := ofSource Sample.run Sample.helpers {} doc (.text "<i><i>") [] config
    doc.Reachable ∧
      (doc.dom.createElement config.sanitized.hostTag).2.slots.size ≤ Dom.maxSlots ∧
      made.1.map View.host = .error (.dom (.parse (.depthLimit 1 "i"))) ∧
      LeftHost doc made.2 config.sanitized.hostTag ∧ made.2.dom.size = 1 := by
  intro doc config made
  have hdoc : doc.Reachable := .new rfl
  have hsize : (doc.dom.createElement config.sanitized.hostTag).2.slots.size ≤ Dom.maxSlots := by
    decide +kernel
  have hrefused : made.1.map View.host = .error (.dom (.parse (.depthLimit 1 "i"))) := by
    decide +kernel
  have hleft : LeftHost doc made.2 config.sanitized.hostTag := by
    cases hmade : made.1 with
    | ok view =>
      rw [hmade] at hrefused
      cases hrefused
    | error e =>
      rw [hmade] at hrefused
      cases hrefused
      rcases ofSource_error hdoc {} (.text "<i><i>") [] config hsize (Prod.ext hmade rfl) with
        ⟨_, _, he, _⟩ | ⟨_, _, _, _, _, hleft⟩
      · cases he
      · exact hleft
  exact ⟨hdoc, hsize, hrefused, hleft, hleft.size⟩

end View
end LiveMarkup
