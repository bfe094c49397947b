import LiveMarkup.Proofs.View.Display
import Mathlib.Logic.Function.Basic

/-!
# Views that share a document

Views of one document share its tree and its patch compiler: the calls of one view fill the slots
that another freed, and push its patches out of the cache.  Nothing of this shows.  As long as no
host lies below another, each view returns and shows under any interleaving of calls what it returns
and shows alone.

Main definitions:

- `Shared`: views of one document.
- `Shared.call`, `Shared.run`: a call of one of the views, and calls of them in any order.
- `Shared.own`: what belongs to one view among what belongs to several.
- `Shared.Separate`: the hosts are live elements, and none lies below another.

Main results:

- `Shared.Separate.of_spares`: work inside one host leaves the hosts separate.
- `Shared.Separate.call`: a call of one view leaves what the others show as it is.
- `Shared.Separate.own_run`: the reports of one view are told by what it shows at first.
- `Shared.Separate.own_run_eq_alone`: views that share a document do not interfere.
-/

namespace LiveMarkup

/-- Views of one document. -/
structure Shared (ι : Type) where
  doc : Document
  views : ι → View

namespace Shared

variable {ι : Type}

/-- What belongs to one view among what belongs to several, in order. -/
def own {α : Type} [DecidableEq ι] (i : ι) (tagged : List (ι × α)) : List α :=
  tagged.filterMap fun (j, a) => if j = i then some a else none

theorem own_cons_self {α : Type} [DecidableEq ι] (i : ι) (a : α) (rest : List (ι × α)) :
    own i ((i, a) :: rest) = a :: own i rest := by
  simp [own]

theorem own_cons_ne {α : Type} [DecidableEq ι] {i j : ι} (hne : j ≠ i) (a : α)
    (rest : List (ι × α)) : own i ((j, a) :: rest) = own i rest := by
  simp [own, hne]

/-- A call of one of the views. -/
def call [DecidableEq ι] (behaviour : Behaviour) (helpers : ι → Registry) (s : Shared ι) (i : ι)
    (c : View.Call) : Report × Shared ι :=
  let (result, v, doc) := (s.views i).call behaviour (helpers i) s.doc c
  (⟨result, v.display doc⟩, { doc, views := Function.update s.views i v })

/-- Calls of the views in any order, with the reports of them. -/
def run [DecidableEq ι] (behaviour : Behaviour) (helpers : ι → Registry) (s : Shared ι) :
    List (ι × View.Call) → List (ι × Report) × Shared ι
  | [] => ([], s)
  | (i, c) :: rest =>
    let (report, s) := s.call behaviour helpers i c
    let (reports, s) := run behaviour helpers s rest
    ((i, report) :: reports, s)

/-- The document may have any history; the hosts are live elements, and none of them lies below
another. -/
structure Separate (s : Shared ι) : Prop where
  reachable : s.doc.Reachable
  isElement : ∀ i, s.doc.dom.isElement (s.views i).host = true
  apart : ∀ i j, i ≠ j → s.doc.dom.contains (s.views i).host (s.views j).host = false

/-- What one view shows. -/
def display (s : Shared ι) (i : ι) : Display :=
  (s.views i).display s.doc

/-- The hosts of different views are apart from each other. -/
theorem Separate.apart_hosts {s : Shared ι} (h : s.Separate) (hwf : s.doc.dom.WellFormed) {i j : ι}
    (hne : i ≠ j) : s.doc.dom.Apart (s.views i).host (s.views j).host := by
  have hout : ∀ {i j : ι}, i ≠ j → ¬ s.doc.dom.Below (s.views i).host (s.views j).host := by
    intro i j hne
    rw [← hwf.contains_iff (Dom.isLive_of_isElement (h.isElement j)), h.apart i j hne]
    exact Bool.false_ne_true
  exact ⟨hout hne, hout hne.symm⟩

/-- Work inside one host leaves the data of every host as it is. -/
theorem Separate.data?_of_spares {s : Shared ι} (h : s.Separate) (hwf : s.doc.dom.WellFormed)
    {i : ι} {d : Dom} (hspares : s.doc.dom.Spares d (s.views i).host) (j : ι) :
    d.data? (s.views j).host = s.doc.dom.data? (s.views j).host := by
  by_cases hj : j = i
  · rw [hj]
    exact hspares.data?_target
  · exact hspares.data?_apart _ (Dom.isLive_of_isElement (h.isElement j))
      (h.apart_hosts hwf (Ne.symm hj))

/-- Work inside one host leaves the hosts separate. -/
theorem Separate.of_spares {s s' : Shared ι} (h : s.Separate) (hwf : s.doc.dom.WellFormed)
    (hwf' : s'.doc.dom.WellFormed) {i : ι}
    (hspares : s.doc.dom.Spares s'.doc.dom (s.views i).host) (hreachable : s'.doc.Reachable)
    (hhost : ∀ j, (s'.views j).host = (s.views j).host) : s'.Separate := by
  have hlive : ∀ j, s.doc.dom.isLive (s.views j).host = true := fun j =>
    Dom.isLive_of_isElement (h.isElement j)
  have helement : ∀ j, s'.doc.dom.isElement (s'.views j).host = true := by
    intro j
    rw [hhost, Dom.isElement_congr (h.data?_of_spares hwf hspares j)]
    exact h.isElement j
  have htarget : ∀ j, (s.views j).host ≠ (s.views i).host →
      s.doc.dom.Apart (s.views i).host (s.views j).host := by
    intro j hj
    refine h.apart_hosts hwf ?_
    rintro rfl
    exact hj rfl
  refine ⟨hreachable, helement, fun j k hne => ?_⟩
  have happart := hspares.apart (hlive j) (hlive k) (htarget j) (htarget k) (h.apart_hosts hwf hne)
  rw [Bool.eq_false_iff, ne_eq, hwf'.contains_iff (Dom.isLive_of_isElement (helement k)), hhost,
    hhost]
  exact happart.1

variable [DecidableEq ι] {behaviour : Behaviour} {helpers : ι → Registry}

/-- A call takes no slot away. -/
theorem slots_size_le_call (s : Shared ι) (i : ι) (c : View.Call) :
    s.doc.dom.slots.size ≤ (s.call behaviour helpers i c).2.doc.dom.slots.size :=
  View.slots_size_le_call s.doc (s.views i) c

/-- Calls take no slot away. -/
theorem slots_size_le_run (s : Shared ι) (calls : List (ι × View.Call)) :
    s.doc.dom.slots.size ≤ (s.run behaviour helpers calls).2.doc.dom.slots.size := by
  induction calls generalizing s with
  | nil => exact Nat.le_refl _
  | cons tagged rest ih => exact (s.slots_size_le_call tagged.1 tagged.2).trans (ih _)

/-- What a call of one view does: it reports what the view would report alone, what the other views
show stays as it is, and the hosts stay separate. -/
structure Served (behaviour : Behaviour) (helpers : ι → Registry) (s : Shared ι) (i : ι)
    (c : View.Call) (after : Report × Shared ι) : Prop where
  separate : after.2.Separate
  making : s.doc.compiler.SameMaking after.2.doc.compiler
  report_eq : after.1 = (s.display i).call s.doc.compiler.config s.doc.parser behaviour (helpers i) c
  display_self : after.2.display i = after.1.display
  display_other : ∀ j, j ≠ i → after.2.display j = s.display j

/-- A call serves its own view and leaves the others alone; the views stay separate. -/
theorem Separate.call {s : Shared ι} (h : s.Separate) (i : ι) (c : View.Call)
    (hsize : (s.call behaviour helpers i c).2.doc.dom.slots.size ≤ Dom.maxSlots) :
    Served behaviour helpers s i c (s.call behaviour helpers i c) := by
  have hserved := View.served_call h.reachable (s.views i) (h.isElement i) c hsize
  have hwf := h.reachable.dom.wellFormed ((s.slots_size_le_call i c).trans hsize)
  have hwf' := hserved.reachable.dom.wellFormed hsize
  simp only [Shared.call] at hsize ⊢
  generalize (s.views i).call behaviour (helpers i) s.doc c = after at hserved hwf' hsize ⊢
  obtain ⟨result, v, doc⟩ := after
  have hhost : ∀ j, (Function.update s.views i v j).host = (s.views j).host := by
    intro j
    by_cases hj : j = i
    · rw [hj, Function.update_self]
      exact hserved.host
    · rw [Function.update_of_ne hj]
  refine ⟨h.of_spares hwf hwf' hserved.spares hserved.reachable hhost, hserved.making,
    hserved.report_eq, ?_, ?_⟩
  · simp only [display, Function.update_self]
  · intro j hj
    refine View.display_congr (Function.update_of_ne hj v s.views)
      (h.data?_of_spares hwf hserved.spares j) ?_
    exact hserved.spares.forest_apart _ (Dom.isLive_of_isElement (h.isElement j))
      (h.apart_hosts hwf (Ne.symm hj))

/-- The reports of one view are told by what it shows at first and by its own calls. -/
theorem Separate.own_run {s : Shared ι} (h : s.Separate) (calls : List (ι × View.Call))
    (hsize : (s.run behaviour helpers calls).2.doc.dom.slots.size ≤ Dom.maxSlots) (i : ι) :
    own i (s.run behaviour helpers calls).1 =
      (s.display i).run s.doc.compiler.config s.doc.parser behaviour (helpers i) (own i calls) := by
  induction calls generalizing s with
  | nil => rfl
  | cons tagged rest ih =>
    obtain ⟨j, c⟩ := tagged
    have hstep := (slots_size_le_run (s.call behaviour helpers j c).2 rest).trans hsize
    have hserved := h.call j c hstep
    have hrest := ih hserved.separate hsize
    have hparser : (s.call behaviour helpers j c).2.doc.parser = s.doc.parser :=
      hserved.making.parser
    rw [hserved.making.config, hparser] at hrest
    rw [run]
    by_cases hj : j = i
    · subst hj
      rw [own_cons_self, own_cons_self, Display.run, hrest, ← hserved.report_eq,
        hserved.display_self]
    · rw [own_cons_ne hj, own_cons_ne hj, hrest, hserved.display_other i (Ne.symm hj)]

/-- Views that share a document do not interfere: under any interleaving of their calls, what a view
returns and shows after each of its own calls is what it returns and shows alone with these calls,
in any document with the same parser and settings, if it shows the same at first. -/
theorem Separate.own_run_eq_alone (behaviour : Behaviour) (helpers : ι → Registry) {s : Shared ι}
    (h : s.Separate) (calls : List (ι × View.Call))
    (hsize : (s.run behaviour helpers calls).2.doc.dom.slots.size ≤ Dom.maxSlots)
    (i : ι) {doc : Document} {v : View} (hdoc : doc.Reachable)
    (hhost : doc.dom.isElement v.host = true) (hparser : doc.parser = s.doc.parser)
    (hconfig : doc.compiler.config = s.doc.compiler.config)
    (hdisplay : v.display doc = (s.views i).display s.doc)
    (hsize' : (v.run behaviour (helpers i) doc (own i calls)).2.2.dom.slots.size ≤
      Dom.maxSlots) :
    own i (s.run behaviour helpers calls).1 =
      (v.run behaviour (helpers i) doc (own i calls)).1 := by
  rw [h.own_run calls hsize i, View.run_eq hdoc v hhost (own i calls) hsize', hparser, hconfig,
    hdisplay]
  rfl

/-- Two views inside one element, with room for one kept patch, whose patches push each other out and
whose slots pass from one to the other, beside the second of them alone; one of its calls is refused
and one takes its host out. -/
theorem Separate.own_run_eq_alone_with_room_for_one :
    let parser : MarkupParser := fun source =>
      .ok (.ofNodes (if source = "!" then [.comment source]
        else [.element "p" [] [.text source], .element "br" [] []]))
    let shown : Scope → Registry → String := fun data _ =>
      ((data.lookup "x").map Value.text).getD ""
    let template : Template := ⟨.function shown, .function shown, {}⟩
    let create := fun doc => (View.create Sample.run Sample.helpers doc template []).2
    let doc := create (Document.new parser { cacheCapacity := 1 })
    let inside := [Dom.Operation.createElement "main", .appendChild ⟨8, 0⟩ ⟨0, 0⟩,
      .appendChild ⟨8, 0⟩ ⟨4, 0⟩]
    let s : Shared Bool :=
      { doc := { create doc with dom := inside.foldl Dom.perform (create doc).dom }
        views := fun second => { template, model := [], host := ⟨if second then 4 else 0, 0⟩ } }
    let v : View := { template, model := [], host := ⟨0, 0⟩ }
    let calls : List (Bool × View.Call) :=
      [(false, .patch "!"), (true, .update [("x", .str "a")]), (false, .patch "b"),
        (true, .patch "!"), (false, .update [("x", .str "a")]), (true, .destroy),
        (false, .destroy), (true, .define (.function shown))]
    let alone := v.run Sample.run Sample.helpers doc (own true calls)
    s.Separate ∧ own true (s.run Sample.run (fun _ => Sample.helpers) calls).1 = alone.1 ∧
      alone.1.map (fun report => (report.result, report.display.markup)) =
        [(.ok (), "<p>a</p><br>"),
          (.error (.patch (.unhandledNodeKind .comment "@0")), "<p>a</p><br>"),
          (.ok (), "<p>a</p><br>"), (.ok (), "<p>a</p><br>")] := by
  intro parser shown template create doc inside s v calls alone
  have hdoc : doc.Reachable := View.reachable_create (.new rfl) template [] {}
  have hboth : (create doc).Reachable := View.reachable_create hdoc template [] {}
  have hseparate : s.Separate :=
    ⟨.edit hboth (hboth.dom.foldl_perform inside), by decide +kernel, by decide +kernel⟩
  have hcompiler : (create doc).compiler = doc.compiler := View.compiler_create doc template [] {}
  have hdisplay : v.display doc = (s.views true).display s.doc :=
    congrArg (Display.mk template [])
      (by decide +kernel : v.markup doc = (s.views true).markup s.doc)
  have heq := hseparate.own_run_eq_alone Sample.run (fun _ => Sample.helpers) calls
    (by decide +kernel) true hdoc (by decide +kernel) (congrArg (·.parser) hcompiler.symm)
    (congrArg (·.config) hcompiler.symm) hdisplay (by decide +kernel)
  exact ⟨hseparate, heq, by decide +kernel⟩

end Shared
end LiveMarkup
