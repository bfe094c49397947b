import LiveMarkup.Proofs.Dom.Lifetimes

/-!
# Stale handles

A handle is given out once.  When its node has been freed the handle is stale: it stays dead for the
rest of the run, whatever the slot is used for, nothing can be read through it, and every operation
that names it is refused.

Main definitions:

- `Dom.Operation.handles`: the handles that an operation names.
- `Dom.outcome`: what an operation gives back.
- `Dom.SeesNothing`: a handle through which nothing can be read.
- `Dom.Issued`: handles that are new.

Main results:

- `Dom.perform_of_not_isLive`: an operation that names a dead handle fails and changes nothing.
- `Dom.WellFormed.issued_of_outcome`: the handles that an operation gives back are new.
- `Dom.stale_handles_stay_dead`: both of them, and the lifetime of handles, over a whole run.
-/

namespace LiveMarkup
namespace Dom

variable {d : Dom}

/-! ## What operations name and give back -/

/-- The handles in the arguments of an operation. -/
def Operation.handles : Operation → List NodeId
  | .createElement _ => []
  | .createText _ => []
  | .setAttribute id _ _ => [id]
  | .appendChild parent child => [parent, child]
  | .remove id => [id]
  | .parseInto _ parent _ => [parent]
  | .patch target _ => [target]

/-- What an operation gives back: the handles of new nodes, or the reason why it fails. -/
def outcome (d : Dom) : Operation → Except DomError (List NodeId)
  | .createElement tag => .ok [(d.createElement tag).1]
  | .createText content => .ok [(d.createText content).1]
  | .setAttribute id name value => (d.setAttribute id name value).map fun _ => []
  | .appendChild parent child => (d.appendChild parent child).map fun _ => []
  | .remove id => (d.remove id).map fun _ => []
  | .parseInto parser parent markup => (parseInto parser d parent markup).map (·.1)
  | .patch target stream => (d.patch target stream).1.map fun _ => []

/-! ## Dead handles -/

/-- Nothing can be read through a handle. -/
structure SeesNothing (d : Dom) (id : NodeId) : Prop where
  isLive : d.isLive id = false
  data? : d.data? id = none
  parent? : d.parent? id = none
  children : d.children id = []
  attribute? : ∀ name, d.attribute? id name = none
  text? : d.text? id = none
  outerMarkup : d.outerMarkup id = ""
  innerMarkup : d.innerMarkup id = ""

/-- Through a handle of no live node nothing is seen. -/
theorem seesNothing_of_not_isLive {id : NodeId} (h : d.isLive id = false) : d.SeesNothing id := by
  have hentry : d.entry? id = none := not_isLive_iff.mp h
  have hdata : d.data? id = none := by rw [data?_eq, hentry, Option.map_none]
  have hchildren : d.children id = [] := by rw [children_eq, hentry]; rfl
  have hparent : d.parent? id = none := by rw [parent?_eq, hentry]; rfl
  have helement : d.element? id = none := by simp [element?, hdata]
  refine ⟨h, hdata, hparent, hchildren, ?_, ?_, ?_, ?_⟩
  · intro name
    simp [Dom.attribute?, helement]
  · simp [Dom.text?, hdata]
  · simp [Dom.outerMarkup, tree?, treeTo?_succ, hentry]
  · have hforest : d.forest id = [] := by rw [forest, hchildren]; rfl
    simp [Dom.innerMarkup, hforest, LiveNode.toNodes, Node.markupAll]

/-- A handle of no live node is reported as unknown. -/
theorem requireElement_of_not_isLive {id : NodeId} (h : d.isLive id = false) :
    d.requireElement id = .error (.unknownNode id) := by
  rw [requireElement, (seesNothing_of_not_isLive h).data?]

/-- An operation that names a dead handle fails and changes nothing.  It reports the handle, unless
the handle is a child to be appended and its new parent is refused first. -/
theorem perform_of_not_isLive {id : NodeId} (h : d.isLive id = false) {op : Operation}
    (hop : id ∈ op.handles) :
    d.perform op = d ∧ (d.outcome op = .error (.unknownNode id) ∨
      ∃ parent e, op = .appendChild parent id ∧ d.requireElement parent = .error e ∧
        d.outcome op = .error e) := by
  have hrequire := requireElement_of_not_isLive h
  cases op with
  | createElement tag => cases hop
  | createText content => cases hop
  | setAttribute target name value =>
    cases List.mem_singleton.mp hop
    have hfail : d.setAttribute id name value = .error (.unknownNode id) := by
      rw [setAttribute, hrequire]
    simp [perform, after, outcome, hfail, Except.map]
  | appendChild parent child =>
    rcases List.mem_pair.mp hop with rfl | rfl
    · have hfail : d.appendChild id child = .error (.unknownNode id) := by
        rw [appendChild, hrequire]
      simp [perform, after, outcome, hfail, Except.map]
    · cases hparent : d.requireElement parent with
      | error e =>
        have hfail : d.appendChild parent id = .error e := by rw [appendChild, hparent]
        exact ⟨by simp [perform, after, hfail],
          Or.inr ⟨parent, e, rfl, hparent, by simp [outcome, hfail, Except.map]⟩⟩
      | ok _ =>
        have hfail : d.appendChild parent id = .error (.unknownNode id) := by
          simp [appendChild, hparent, h]
        simp [perform, after, outcome, hfail, Except.map]
  | remove target =>
    cases List.mem_singleton.mp hop
    have hfail : d.remove id = .error (.unknownNode id) := by simp [remove, h]
    simp [perform, after, outcome, hfail, Except.map]
  | parseInto parser parent markup =>
    cases List.mem_singleton.mp hop
    have hfail : parseInto parser d id markup = .error (.unknownNode id) := by
      rw [parseInto, hrequire]
    simp [perform, after, outcome, hfail, Except.map]
  | patch target stream =>
    cases List.mem_singleton.mp hop
    have hfail : d.patch id stream = (.error (.unknownNode id), d) := by
      simp [patch, patchWith, hrequire]
    simp [perform, outcome, hfail, Except.map]

/-! ## New handles -/

/-- In `d'`, the handles are live and different; in `d` they were dead. -/
structure Issued (d d' : Dom) (ids : List NodeId) : Prop where
  nodup : ids.Nodup
  fresh : ∀ id ∈ ids, d.isLive id = false
  live : ∀ id ∈ ids, d'.isLive id = true

theorem issued_nil (d d' : Dom) : d.Issued d' [] :=
  ⟨List.nodup_nil, by simp, by simp⟩

/-- To make a node issues its handle. -/
theorem issued_alloc (h : d.FreeExact) (data : LiveData)
    (hsize : (d.alloc data).2.slots.size ≤ maxSlots) :
    d.Issued (d.alloc data).2 [(d.alloc data).1] :=
  ⟨List.nodup_singleton _, by simpa using isLive_alloc_fresh h data hsize,
    by simpa using isLive_alloc_self h data hsize⟩

/-- Handles given out later, when nothing is freed in between, are different from earlier ones. -/
theorem Issued.append {d₁ d₂ : Dom} {first second : List NodeId} (h₁ : d.Issued d₁ first)
    (h₂ : d₁.Issued d₂ second) (hfills : d.Fills d₁) (hfills' : d₁.Fills d₂) :
    d.Issued d₂ (first ++ second) where
  nodup := by
    refine List.nodup_append.mpr ⟨h₁.nodup, h₂.nodup, ?_⟩
    rintro id hfirst _ hsecond rfl
    have hlive := h₁.live id hfirst
    rw [h₂.fresh id hsecond] at hlive
    cases hlive
  fresh := by
    intro id hid
    rcases List.mem_append.mp hid with hfirst | hsecond
    · exact h₁.fresh id hfirst
    · rw [← Bool.not_eq_true]
      intro hlive
      have hlive' := hfills.isLive hlive
      rw [h₂.fresh id hsecond] at hlive'
      cases hlive'
  live := by
    intro id hid
    rcases List.mem_append.mp hid with hfirst | hsecond
    · exact hfills'.isLive (h₁.live id hfirst)
    · exact h₂.live id hsecond

/-- To import nodes issues their handles. -/
theorem issued_importNodes {parent : NodeId} :
    ∀ (ns : List Node) {d : Dom}, d.WellFormed → d.isLive parent = true →
      (importNodes d parent ns).2.slots.size ≤ maxSlots →
      d.Issued (importNodes d parent ns).2 (importNodes d parent ns).1
  | [], d, _, _, _ => issued_nil d d
  | n :: rest, d, h, hlive, hsize => by
    rw [importNodes_snd] at hsize
    have hfills := fills_importNode d n
    obtain ⟨h₁, hsame, hnew⟩ :=
      importNode_spec h n ((slots_size_importNode_le d parent n rest).trans hsize)
    rw [importUnder] at hsize
    rw [importNodes]
    generalize importNode d n = imported at h₁ hsame hnew hfills hsize ⊢
    obtain ⟨_ | child, d₁⟩ := imported
    · have hrest := issued_importNodes rest h₁ (hsame.isLive hlive)
        (by rw [importNodes_snd]; exact hsize)
      refine (issued_nil d d₁).append hrest hfills ?_
      rw [importNodes_snd]
      exact fills_importUnder d₁ parent rest
    · have hroot := hnew child rfl
      have hput := hroot.grownUnder_insertLast h h₁ hsame hlive
      have hfills₁ : d.Fills (d₁.insertLast parent child) := hfills.insertChild _ _ _
      have hput₁ : d₁.Fills (d₁.insertLast parent child) := (Fills.refl d₁).insertChild _ _ _
      have hfirst : d.Issued (d₁.insertLast parent child) [child] :=
        ⟨List.nodup_singleton _, by simpa using hroot.fresh,
          by simpa using hput₁.isLive hroot.live⟩
      have hsecond := issued_importNodes rest hput.wellFormed hput.live
        (by rw [importNodes_snd]; exact hsize)
      refine hfirst.append hsecond hfills₁ ?_
      rw [importNodes_snd]
      exact fills_importUnder _ parent rest

/-- The handles that come with a success are those of the topmost nodes of the markup. -/
theorem importNodes_of_parseInto {parser : MarkupParser} {parent : NodeId} {markup : String}
    {result : List NodeId × Dom} (hparse : parseInto parser d parent markup = .ok result) :
    ∃ ns : List Node, result = importNodes d parent ns := by
  unfold parseInto at hparse
  split at hparse
  · cases hparse
  · split at hparse
    · cases hparse
    · next f _ => exact ⟨f.forest Fragment.root, (Except.ok.inj hparse).symm⟩

/-- An operation that returns no handles has issued none. -/
theorem eq_nil_of_map_eq_ok {α : Type} {result : Except DomError α} {ids : List NodeId}
    (hok : result.map (fun _ => []) = .ok ids) : ids = [] := by
  cases result with
  | error e => cases hok
  | ok a => exact (Except.ok.inj hok).symm

/-- The handles that an operation gives back are new. -/
theorem WellFormed.issued_of_outcome (h : d.WellFormed) {op : Operation} {ids : List NodeId}
    (hsize : (d.perform op).slots.size ≤ maxSlots) (hok : d.outcome op = .ok ids) :
    d.Issued (d.perform op) ids := by
  cases op with
  | createElement tag =>
    cases hok
    exact issued_alloc h.toFreeExact _ hsize
  | createText content =>
    cases hok
    exact issued_alloc h.toFreeExact _ hsize
  | parseInto parser parent markup =>
    simp only [Dom.perform, outcome] at hsize hok ⊢
    cases hparse : parseInto parser d parent markup with
    | error e =>
      rw [hparse] at hok
      cases hok
    | ok result =>
      obtain ⟨helement, -⟩ := parseInto_eq_ok hparse
      obtain ⟨ns, rfl⟩ := importNodes_of_parseInto hparse
      rw [hparse] at hsize hok
      cases hok
      exact issued_importNodes ns h (isLive_of_isElement helement) hsize
  | setAttribute id name value => exact eq_nil_of_map_eq_ok hok ▸ issued_nil d _
  | appendChild parent child => exact eq_nil_of_map_eq_ok hok ▸ issued_nil d _
  | remove id => exact eq_nil_of_map_eq_ok hok ▸ issued_nil d _
  | patch target stream => exact eq_nil_of_map_eq_ok hok ▸ issued_nil d _

/-! ## A whole run -/

/-- Operations take no slot away. -/
theorem slots_size_le_foldl_perform (d : Dom) (ops : List Operation) :
    d.slots.size ≤ (ops.foldl perform d).slots.size := by
  induction ops generalizing d with
  | nil => exact Nat.le_refl _
  | cons op rest ih => exact (slots_size_le_perform d op).trans (ih _)

/-- The trees before an operation of a run, and those at its start and at its end, come in this
order. -/
theorem sublist_history {earlier later : List Operation} {op : Operation} {e : Dom}
    (he : e ∈ past {} earlier) :
    [e, earlier.foldl perform {}, (earlier ++ [op]).foldl perform {}].Sublist
      (history (earlier ++ op :: later)) := by
  obtain ⟨rest, hrest⟩ := exists_past_concat ((earlier ++ [op]).foldl perform {}) later
  have hafter : [(earlier ++ [op]).foldl perform {}].Sublist
      ((earlier.foldl perform {}).within op ++
        (past ((earlier ++ [op]).foldl perform {}) later ++
          [later.foldl perform ((earlier ++ [op]).foldl perform {})])) := by
    rw [List.singleton_sublist, hrest]
    simp
  rw [history_append]
  refine (List.singleton_sublist.mpr he).append ?_
  simpa [past] using hafter.cons_cons (earlier.foldl perform {})

/-- In a run that does not outgrow the handles and frees no slot as often as there are generations:

- a handle that was live and is dead does not come back;
- a node that is made, also one within a patch, gets a handle that was never live before;
- so do the nodes whose handles an operation gives back, and these are different and live;
- through a dead handle nothing can be read, and an operation that names it fails and changes
  nothing; it reports the handle, unless the handle is a child to be appended and its new parent is
  refused first. -/
theorem stale_handles_stay_dead (ops : List Operation)
    (hsize : (ops.foldl perform {}).slots.size ≤ maxSlots)
    (hfreed : ∀ index, timesFreed index (history ops) < 2 ^ 32) (id : NodeId) :
    (∀ d₁ d₂ d₃, [d₁, d₂, d₃].Sublist (history ops) → d₁.isLive id = true →
        d₂.isLive id = false → d₃.isLive id = false) ∧
      (∀ before d d' after, history ops = before ++ d :: d' :: after → d.isLive id = false →
        d'.isLive id = true → ∀ e ∈ before, e.isLive id = false) ∧
      (∀ earlier op later, ops = earlier ++ op :: later →
        ∀ ids, (earlier.foldl perform {}).outcome op = .ok ids → ids.Nodup ∧
          (id ∈ ids → (∀ e ∈ history earlier, e.isLive id = false) ∧
            ((earlier ++ [op]).foldl perform {}).isLive id = true)) ∧
      ∀ d ∈ history ops, d.isLive id = false → d.SeesNothing id ∧
        ∀ op : Operation, id ∈ op.handles → d.perform op = d ∧
          (d.outcome op = .error (.unknownNode id) ∨
            ∃ parent e, op = .appendChild parent id ∧ d.requireElement parent = .error e ∧
              d.outcome op = .error e) := by
  have hdead : ∀ d₁ d₂ d₃, [d₁, d₂, d₃].Sublist (history ops) → d₁.isLive id = true →
      d₂.isLive id = false → d₃.isLive id = false := fun _ _ _ =>
    not_isLive_of_sublist (isChain_history ops) (hfreed id.index)
  refine ⟨hdead, ?_, ?_, ?_⟩
  · intro before d d' after hhistory hd hd' e he
    rw [← Bool.not_eq_true]
    intro hlive
    have hsublist : [e, d, d'].Sublist (history ops) := by
      rw [hhistory]
      have hlast : [d, d'].Sublist (d :: d' :: after) :=
        ((List.nil_sublist after).cons_cons d').cons_cons d
      exact (List.singleton_sublist.mpr he).append hlast
    rw [hdead e d d' hsublist hlive hd] at hd'
    cases hd'
  · rintro earlier op later rfl ids hok
    have hfoldl : (earlier ++ [op]).foldl perform {} = (earlier.foldl perform {}).perform op := by
      simp
    have hafter : ((earlier ++ [op]).foldl perform {}).slots.size ≤ maxSlots := by
      rw [List.foldl_append, List.foldl_cons, ← hfoldl] at hsize
      exact (slots_size_le_foldl_perform _ later).trans hsize
    rw [hfoldl] at hafter
    have hbefore := (slots_size_le_perform (earlier.foldl perform {}) op).trans hafter
    have hwf := (Reachable.empty.foldl_perform earlier).wellFormed hbefore
    have hissued := hwf.issued_of_outcome hafter hok
    refine ⟨hissued.nodup, ?_⟩
    intro hid
    have hlive : ((earlier ++ [op]).foldl perform {}).isLive id = true :=
      hfoldl ▸ hissued.live id hid
    refine ⟨?_, hlive⟩
    intro e he
    rcases List.mem_append.mp he with hpast | hnow
    · rw [← Bool.not_eq_true]
      intro hlive'
      rw [hdead _ _ _ (sublist_history hpast) hlive' (hissued.fresh id hid)] at hlive
      cases hlive
    · rw [List.mem_singleton.mp hnow]
      exact hissued.fresh id hid
  · intro d _ hd
    exact ⟨seesNothing_of_not_isLive hd, fun _ hop => perform_of_not_isLive hd hop⟩

/-- A patch frees the text in a list item and fills its slot again before it ends; the handle of the
text stays dead, and the slot that the patch freed last goes to a new text. -/
theorem stale_handles_stay_dead_in_filled_slot :
    let first := [Operation.createElement "ul",
      .parseInto (fun _ => .ok (Fragment.ofNodes [.element "li" [⟨"id", "a"⟩] [.text "x"],
        .element "li" [⟨"id", "b"⟩] []])) ⟨0, 0⟩ "",
      .patch ⟨0, 0⟩ [.openElement "li" "a" [], .closeElement "li", .openElement "p" "c" [],
        .closeElement "p"]]
    let ops := first ++ [Operation.createText "y", .appendChild ⟨0, 0⟩ ⟨2, 0⟩]
    let d := ops.foldl perform {}
    d.slots.size ≤ maxSlots ∧ (∀ index, timesFreed index (history ops) < 2 ^ 32) ∧
      timesFreed 2 (history ops) = 1 ∧ d.isLive ⟨2, 1⟩ = true ∧ d.SeesNothing ⟨2, 0⟩ ∧
      d.perform (.patch ⟨2, 0⟩ [.text "z"]) = d ∧
      d.outcome (.patch ⟨2, 0⟩ [.text "z"]) = .error (.unknownNode ⟨2, 0⟩) ∧
      (first.foldl perform {}).outcome (.createText "y") = .ok [⟨3, 1⟩] ∧
      ∀ e ∈ history first, e.isLive ⟨3, 1⟩ = false := by
  intro first ops d
  have hsize : d.slots.size ≤ maxSlots := by decide +kernel
  have hfreed : ∀ index, timesFreed index (history ops) < 2 ^ 32 := by
    intro index
    refine (timesFreed_le_length index (history ops)).trans_lt ?_
    decide +kernel
  have hissued : (first.foldl perform {}).outcome (.createText "y") = .ok [⟨3, 1⟩] := by
    decide +kernel
  obtain ⟨hdead, -, -, hstale⟩ := stale_handles_stay_dead ops hsize hfreed ⟨2, 0⟩
  obtain ⟨-, -, hnew, -⟩ := stale_handles_stay_dead ops hsize hfreed ⟨3, 1⟩
  have hid : d.isLive ⟨2, 0⟩ = false := by
    refine hdead ((first.take 2).foldl perform {}) (first.foldl perform {}) d ?_ ?_ ?_ <;>
      decide +kernel
  have hmem : d ∈ history ops := List.mem_append_right _ (List.mem_singleton_self d)
  obtain ⟨hnothing, hrefused⟩ := hstale d hmem hid
  obtain ⟨hsame, hreport | ⟨_, _, hop, -⟩⟩ :=
    hrefused (.patch ⟨2, 0⟩ [.text "z"]) (List.mem_singleton_self _)
  · refine ⟨hsize, hfreed, by decide +kernel, by decide +kernel, hnothing, hsame, hreport, hissued,
      ?_⟩
    exact ((hnew first (.createText "y") _ rfl _ hissued).2 (List.mem_singleton_self _)).1
  · cases hop

end Dom
end LiveMarkup
