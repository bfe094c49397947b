import LiveMarkup.Proofs.Template.Names

/-!
# Rounds of a block

While a block is rendered no scope is built for its items: names are looked up in a frame, first in
the item of the round and then in the scope.  The frame gives each name the meaning that it has in a
scope of its own, in which the entries of the item, the item itself and its position are bound over
the data.  So a block shows what its body shows as a template of its own over these scopes.

Main definitions:

- `Entries.overlay`: bindings set over others.
- `Scope.inRound`: the scope that a round of a block stands for.
- `Scope.itemsAt`: what the path of a block stands for.

Main results:

- `Entries.lookup_overlay`: what a look-up finds among bindings set over others.
- `Render.resolve?_inRound`: the frame of a round and the scope of the round agree on all names.
- `Template.render_block_eq_rounds`: a block shows its body once for each item.
-/

namespace LiveMarkup

/-! ## Scopes of rounds -/

/-- Bindings set over others.  They are set from the last to the first, so that of two bindings of
one name the first counts, as it does for a look-up. -/
def Entries.overlay {α : Type} (bindings held : Entries α) : Entries α :=
  bindings.foldr (fun binding entries => insert binding.1 binding.2 entries) held

/-- A look-up finds what was set over the other bindings, and else what was there. -/
theorem Entries.lookup_overlay {α : Type} (bindings held : Entries α) (name : String) :
    (overlay bindings held).lookup name = (bindings.lookup name).or (held.lookup name) := by
  induction bindings with
  | nil => rfl
  | cons binding bindings ih =>
    obtain ⟨other, value⟩ := binding
    rw [overlay, List.foldr_cons, ← overlay, lookup_insert, ih, lookup_cons]
    split
    · rfl
    · rfl

/-- The scope of a round: the entries of the item, if it is a map, set over the data, and over these
the item under the name `this` and its position under `@index`. -/
def Scope.inRound (data : Scope) (item : Value) (index : Nat) : Scope :=
  Entries.insert "@index" (.ofSize index)
    (Entries.insert "this" item (Entries.overlay (item.entries?.getD []) data))

/-- What the path of a block stands for: the elements of a list or the values of a map, in order,
and nothing for anything else, a helper included. -/
def Scope.itemsAt (helpers : Registry) (data : Scope) (path : List String) : List Value :=
  match Render.resolvePath? helpers { data } path with
  | some (.list items) => items
  | some (.map entries) => entries.map (·.2)
  | _ => []

namespace Render

variable (run : Behaviour) (helpers : Registry) (data : Scope)

/-- In a round a name means what it means in the scope of the round. -/
theorem resolve?_inRound (item : Value) (index : Nat) (name : String) :
    resolve? helpers { data, round := some (item, index) } name =
      resolve? helpers { data := Scope.inRound data item index } name := by
  rw [resolve?, resolve?]
  cases helpers.get? name with
  | some h => rfl
  | none =>
    simp only [Frame.lookup?, Scope.inRound, Entries.lookup_insert, Entries.lookup_overlay]
    by_cases hthis : name = "this"
    · subst hthis
      rfl
    · by_cases hindex : name = "@index"
      · simp [hindex]
      · simp only [if_neg hthis, if_neg hindex]
        cases item.entries? <;> rfl

/-- The items of a block are those of what its path means. -/
theorem items_eq_itemsAt (path : List String) :
    ((resolvePath? helpers { data } path).getD .null).items = Scope.itemsAt helpers data path := by
  rw [Scope.itemsAt]
  cases resolvePath? helpers { data } path with
  | none => rfl
  | some v => cases v <;> rfl

/-- A block shows, for each item, its body over the scope of the round. -/
theorem join_segment_each (escaped : Bool) (path : List String) (body : List Piece) :
    join escaped (segment run helpers data (.each path body)) =
      String.join ((Scope.itemsAt helpers data path).mapIdx fun index item =>
        Program.render run helpers escaped (Scope.inRound data item index)
          (.segments (body.map .piece))) := by
  rw [segment, items_eq_itemsAt, rounds, join_flatMap, List.mapIdx_eq_zipIdx_map]
  refine congrArg String.join (List.map_congr_left fun round _ => ?_)
  obtain ⟨item, index⟩ := round
  dsimp only
  rw [Program.render_map_piece]
  refine congrArg (join escaped) (List.map_congr_left fun p _ => piece_congr fun name _ => ?_)
  exact resolve?_inRound helpers data item index name

end Render

/-! ## Templates -/

namespace Template

/-- A text compiles to a template in which each block shows its body, as a template of its own and
with the same helpers, once for each item that its path stands for: over the data with the entries
of the item set over it, then the item itself and its position. -/
theorem render_block_eq_rounds {text : String} {before after : List Segment} {path : List String}
    {body : List Piece} (h : Segment.ofText text = .ok (before ++ .each path body :: after))
    (config : TemplateConfig) :
    ∃ t, compile config (.text text) = .ok t ∧ ∀ run helpers data,
      t.render run helpers data =
        Program.render run helpers config.escape data (.segments before) ++
          String.join ((Scope.itemsAt helpers data path).mapIdx fun index item =>
            Program.render run helpers config.escape (Scope.inRound data item index)
              (.segments (body.map .piece))) ++
          Program.render run helpers config.escape data (.segments after) := by
  refine ⟨_, compile_of_ofText h config, fun run helpers data => ?_⟩
  rw [render, Program.render_each, Render.join_segment_each]

/-- A block over the values of a map.  The first item has entries under the names of the item, of
its position and of a helper, and one that hides an outer binding; the second is no map. -/
theorem render_block_eq_rounds_of_shadows :
    let text := "<\x7b\x7beach rows\x7d\x7d#\x7b@index\x7d#\x7bthis.a\x7d#\x7bupper(a)\x7d" ++
      "#\x7bgreet\x7d,\x7b\x7b/each\x7d\x7d>#\x7ba\x7d"
    let body := [Piece.placeholder (.operand (.path ["@index"])),
      .placeholder (.operand (.path ["this", "a"])), .placeholder (.call "upper" [.path ["a"]]),
      .placeholder (.operand (.path ["greet"])), .literal ","]
    let first :=
      [("this", .str "no"), ("@index", .str "no"), ("greet", .str "no"), ("a", .str "in")]
    let data := [("rows", .map [("x", .map first), ("y", .null)]), ("a", .str "out")]
    Segment.ofText text =
        .ok ([.piece (.literal "<")] ++ .each ["rows"] body ::
          [.piece (.literal ">"), .piece (.placeholder (.operand (.path ["a"])))]) ∧
      Scope.itemsAt Sample.helpers data ["rows"] = [.map first, .null] ∧
      Scope.inRound data (.map first) 0 =
        [("rows", .map [("x", .map first), ("y", .null)]), ("a", .str "in"), ("greet", .str "no"),
          ("@index", .int 0), ("this", .map first)] ∧
      ∃ t, compile {} (.text text) = .ok t ∧
        t.render Sample.run Sample.helpers data = "<0inINhi,1OUThi,>out" := by
  intro text body first data
  have hread : Segment.ofText text =
      .ok ([.piece (.literal "<")] ++ .each ["rows"] body ::
        [.piece (.literal ">"), .piece (.placeholder (.operand (.path ["a"])))]) := by cbv
  obtain ⟨t, hcompile, hrender⟩ := render_block_eq_rounds hread {}
  refine ⟨hread, rfl, rfl, t, hcompile, ?_⟩
  rw [hrender]
  decide +kernel

end Template
end LiveMarkup
