import LiveMarkup.Proofs.Template.Compilation
import LiveMarkup.Sample

/-!
# The names in a template

An expression looks up the first segments of its paths and the name that it calls, and nothing else.
Whatever the frame, a name is looked up among the registered helpers first, so of the scope itself a
template sees only the names that stand in it and are no helper's.

Main definitions:

- `Operand.names`, `Expr.names`, `Piece.names`, `Segment.names`, `Template.names`: the names that
  are looked up.

Main results:

- `Render.eval_congr`, `Render.piece_congr`: frames that agree on the names of an expression.
- `Render.piece_of_resolve?`, `Render.eval_call_of_resolve?`: a name that stands for a helper.
- `Render.segment_congr`: scopes that agree on the names of a segment, helpers aside.
- `Template.render_depends_on_names`: templates see only their names, and no helper is hidden.
-/

namespace LiveMarkup

/-! ## Names -/

/-- The name that an argument looks up: the first segment of a path. -/
def Operand.names : Operand → List String
  | .path (first :: _) => [first]
  | _ => []

/-- The names that an expression looks up. -/
def Expr.names : Expr → List String
  | .operand o => o.names
  | .call name args => name :: args.flatMap Operand.names

/-- The names that a piece looks up. -/
def Piece.names : Piece → List String
  | .literal _ => []
  | .placeholder e => e.names

/-- The names that a segment looks up; for a block, those of its path and of its body. -/
def Segment.names : Segment → List String
  | .piece p => p.names
  | .each path body => (Operand.path path).names ++ body.flatMap Piece.names

/-- The names that the text of a template looks up. -/
def Template.names (t : Template) : List String :=
  t.parts.flatMap Segment.names

/-! ## Frames that agree -/

namespace Render

variable {run : Behaviour} {helpers : Registry} {frame other : Frame}

theorem resolvePath?_congr {path : List String}
    (h : ∀ name ∈ (Operand.path path).names,
      resolve? helpers frame name = resolve? helpers other name) :
    resolvePath? helpers frame path = resolvePath? helpers other path := by
  cases path with
  | nil => rfl
  | cons first rest =>
    have hfirst := h first List.mem_cons_self
    rw [resolvePath?, resolvePath?, hfirst]

theorem operandValue_congr {o : Operand}
    (h : ∀ name ∈ o.names, resolve? helpers frame name = resolve? helpers other name) :
    operandValue helpers frame o = operandValue helpers other o := by
  cases o with
  | path segments => rw [operandValue, operandValue, resolvePath?_congr h]
  | literal v => rfl

/-- An expression has the same value in frames that agree on its names. -/
theorem eval_congr {e : Expr}
    (h : ∀ name ∈ e.names, resolve? helpers frame name = resolve? helpers other name) :
    eval run helpers frame e = eval run helpers other e := by
  cases e with
  | operand o => exact operandValue_congr h
  | call name args =>
    rw [Expr.names, List.forall_mem_cons] at h
    obtain ⟨hname, hargs⟩ := h
    have hvalues : args.map (operandValue helpers frame) = args.map (operandValue helpers other) :=
      List.map_congr_left fun o ho => operandValue_congr fun name hmem =>
        hargs name (List.mem_flatMap.mpr ⟨o, ho, hmem⟩)
    rw [eval, eval, hname, hvalues]

/-- A piece shows the same in frames that agree on its names. -/
theorem piece_congr {p : Piece}
    (h : ∀ name ∈ p.names, resolve? helpers frame name = resolve? helpers other name) :
    piece run helpers frame p = piece run helpers other p := by
  cases p with
  | literal text => rfl
  | placeholder e => rw [piece, piece, eval_congr h]

/-! ## Scopes that agree -/

/-- A name that stands for a helper, registered or bound, shows what the helper returns without
arguments. -/
theorem piece_of_resolve? {name : String} {h : Helper}
    (hresolve : resolve? helpers frame name = some (.helper h)) :
    piece run helpers frame (.placeholder (.operand (.path [name]))) = .value (run h []).text := by
  rw [piece, eval, operandValue, resolvePath?, List.foldl_nil, hresolve, Option.getD_some, shown]

/-- A name that stands for a helper calls it. -/
theorem eval_call_of_resolve? {name : String} {h : Helper}
    (hresolve : resolve? helpers frame name = some (.helper h)) (args : List Operand) :
    eval run helpers frame (.call name args) =
      run h (args.map (operandValue helpers frame)) := by
  rw [eval, hresolve, Option.bind_some, Value.helper?]

/-- A registered helper is found in any frame. -/
theorem resolve?_of_get? {name : String} {h : Helper} (hget : helpers.get? name = some h)
    (frame : Frame) : resolve? helpers frame name = some (.helper h) := by
  rw [resolve?, hget]

/-- In any frame the name of a registered helper shows what the helper returns without arguments. -/
theorem piece_of_get? {name : String} {h : Helper} (hget : helpers.get? name = some h)
    (frame : Frame) :
    piece run helpers frame (.placeholder (.operand (.path [name]))) = .value (run h []).text :=
  piece_of_resolve? (resolve?_of_get? hget frame)

/-- In any frame the name of a registered helper calls the helper. -/
theorem eval_call_of_get? {name : String} {h : Helper} (hget : helpers.get? name = some h)
    (frame : Frame) (args : List Operand) :
    eval run helpers frame (.call name args) =
      run h (args.map (operandValue helpers frame)) :=
  eval_call_of_resolve? (resolve?_of_get? hget frame) args

/-- In the same round, scopes that agree on a name give it the same meaning. -/
theorem resolve?_congr {data data' : Scope} {name : String}
    (h : helpers.get? name = none → data.lookup name = data'.lookup name)
    (round : Option (Value × Nat)) :
    resolve? helpers { data, round } name = resolve? helpers { data := data', round } name := by
  cases hget : helpers.get? name with
  | some helper => rw [resolve?_of_get? hget, resolve?_of_get? hget]
  | none =>
    rw [resolve?, resolve?, hget]
    cases round with
    | none => exact h hget
    | some round =>
      obtain ⟨item, index⟩ := round
      simp only [Frame.lookup?, h hget]

/-- A segment shows the same over scopes that agree on its names, those of helpers aside. -/
theorem segment_congr {data data' : Scope} {s : Segment}
    (h : ∀ name ∈ s.names, helpers.get? name = none → data.lookup name = data'.lookup name) :
    segment run helpers data s = segment run helpers data' s := by
  have hresolve {name : String} (hmem : name ∈ s.names) (round : Option (Value × Nat)) :=
    resolve?_congr (h name hmem) round
  cases s with
  | piece p => rw [segment, segment, piece_congr fun name hmem => hresolve hmem none]
  | each path body =>
    have hitems :
        resolvePath? helpers { data } path = resolvePath? helpers { data := data' } path :=
      resolvePath?_congr fun name hmem => hresolve (List.mem_append_left _ hmem) none
    have hbody (round : Option (Value × Nat)) :
        body.map (piece run helpers { data, round }) =
          body.map (piece run helpers { data := data', round }) := by
      refine List.map_congr_left fun p hp => piece_congr fun name hmem => ?_
      exact hresolve (List.mem_append_right _ (List.mem_flatMap.mpr ⟨p, hp, hmem⟩)) round
    simp only [segment, rounds, hitems, hbody]

end Render

/-! ## Templates -/

namespace Template

/-- A template that was compiled from a text sees of its scope only what is bound to names that
stand in the text and are no helper's.  So no binding hides a helper that is registered, and in any
frame, that of a block included, the helper is what its name shows and calls. -/
theorem render_depends_on_names {config : TemplateConfig} {text : String} {t : Template}
    (h : compile config (.text text) = .ok t) (run : Behaviour) (helpers : Registry) :
    (∀ data data' : Scope,
      (∀ name ∈ t.names, helpers.get? name = none → data.lookup name = data'.lookup name) →
        t.render run helpers data = t.render run helpers data') ∧
      ∀ name helper, helpers.get? name = some helper →
        (∀ data value,
          t.render run helpers (Entries.insert name value data) = t.render run helpers data) ∧
          ∀ frame, Render.piece run helpers frame (.placeholder (.operand (.path [name]))) =
              .value (run helper []).text ∧
            ∀ args, Render.eval run helpers frame (.call name args) =
              run helper (args.map (Render.operandValue helpers frame)) := by
  have hagree : ∀ data data' : Scope,
      (∀ name ∈ t.names, helpers.get? name = none → data.lookup name = data'.lookup name) →
        t.render run helpers data = t.render run helpers data' := by
    intro data data' hnames
    cases compile_text_eq_ok_iff.mp h with
    | segments hparts =>
      refine congrArg (Render.join config.escape) (List.flatMap_congr fun s hs => ?_)
      exact Render.segment_congr fun name hmem =>
        hnames name (List.mem_flatMap.mpr ⟨s, hs, hmem⟩)
    | empty => rfl
  refine ⟨hagree, fun name helper hget => ⟨fun data value => ?_, fun frame =>
    ⟨Render.piece_of_get? hget frame, Render.eval_call_of_get? hget frame⟩⟩⟩
  refine hagree _ _ fun other _ hnone => ?_
  have hne : other ≠ name := by
    rintro rfl
    rw [hget] at hnone
    cases hnone
  rw [Entries.lookup_insert, if_neg hne]

/-- A helper named outside and inside a block, where an item has an entry of that name too: a scope
with a binding for it, an unused name and another order shows the same. -/
theorem render_depends_on_names_of_greeting :
    let text := "#\x7bgreet\x7d\x7b\x7beach rows\x7d\x7d#\x7bgreet\x7d " ++
      "#\x7bupper(name)\x7d#\x7btail\x7d\x7b\x7b/each\x7d\x7d"
    let rows := Value.list [.map [("greet", .str "no"), ("name", .str "ada")], .str "bob"]
    let data := [("rows", rows), ("tail", .str ";")]
    let data' := [("greet", .str "bye"), ("tail", .str ";"), ("spare", .null), ("rows", rows)]
    ∃ t, compile {} (.text text) = .ok t ∧
      t.names = ["greet", "rows", "greet", "upper", "name", "tail"] ∧
      (∀ name ∈ t.names, Sample.helpers.get? name = none →
        data.lookup name = data'.lookup name) ∧
      t.render Sample.run Sample.helpers data = t.render Sample.run Sample.helpers data' ∧
      Sample.helpers.get? "greet" = some Sample.greet ∧
      t.render Sample.run Sample.helpers (Entries.insert "greet" (.str "bye") data) =
        t.render Sample.run Sample.helpers data ∧
      Render.piece Sample.run Sample.helpers { data, round := some (.map [("greet", .null)], 0) }
        (.placeholder (.operand (.path ["greet"]))) = .value "hi" := by
  intro text rows data data'
  have hcompile : compile {} (.text text) = .ok
      { source := .text text
        program := .segments [.piece (.placeholder (.operand (.path ["greet"]))),
          .each ["rows"] [.placeholder (.operand (.path ["greet"])), .literal " ",
            .placeholder (.call "upper" [.path ["name"]]),
            .placeholder (.operand (.path ["tail"]))]]
        config := {} } := compile_of_ofText (by cbv) {}
  obtain ⟨hagree, hhelpers⟩ := render_depends_on_names hcompile Sample.run Sample.helpers
  obtain ⟨hinsert, hframes⟩ := hhelpers "greet" Sample.greet rfl
  have hnames : ∀ name ∈ ["greet", "rows", "greet", "upper", "name", "tail"],
      Sample.helpers.get? name = none → data.lookup name = data'.lookup name := by
    simp [data, data', Registry.get?, Sample.helpers, List.lookup]
  exact ⟨_, hcompile, rfl, hnames, hagree data data' hnames, rfl, hinsert data _, (hframes _).1⟩

end Template
end LiveMarkup
