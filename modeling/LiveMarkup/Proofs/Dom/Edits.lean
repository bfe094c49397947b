import LiveMarkup.Proofs.Dom.GivenIds
import LiveMarkup.Proofs.Dom.Handles
import LiveMarkup.Proofs.Dom.Import

/-!
# What edits change, and when they fail

An edit that fails reports the first thing that is wrong and changes nothing.  One that succeeds
moves a node, sets an attribute or imports nodes, and leaves everything else as it was.

Markup is imported tree by tree, and each new tree is appended with the checks of any append.  These
checks pass: the parent was found to be an element, and a new node has nothing old below it.  So to
parse into an element fails before anything is imported, or not at all.

Main definitions:

- `Dom.NotElement`, `Dom.Fails`: why an edit fails.
- `Dom.Moved`: what changes when a node comes under another parent, or under none.
- `Dom.AttributeSet`: what changes when an attribute is set.
- `Dom.importEach`, `Dom.parseEach`: imports that keep the tree at the point where they stop.

Main results:

- `Dom.WellFormed.outcome_eq_error_iff`, `Dom.Fails.perform_eq`: the failures, which change nothing.
- `Dom.WellFormed.moved_detach`, `Dom.WellFormed.moved_insertLast`: moving nodes.
- `Dom.importEach_eq`: no append stops an import.
- `Dom.Reachable.edits_exact`: all of this for every reachable tree.
-/

namespace LiveMarkup
namespace Dom

variable {d d' : Dom} {parent child id : NodeId}

/-! ## Failures -/

/-- Why a handle does not name an element. -/
inductive NotElement (d : Dom) (id : NodeId) : DomError → Prop where
  | dead (h : d.isLive id = false) : d.NotElement id (.unknownNode id)
  | other (hlive : d.isLive id = true) (h : d.isElement id = false) :
    d.NotElement id (.notAnElement id)

/-- Why an edit fails.  Of several reasons the first is reported. -/
inductive Fails (d : Dom) : Operation → DomError → Prop where
  | setAttribute {id : NodeId} {e : DomError} (h : d.NotElement id e) (name value : String) :
    d.Fails (.setAttribute id name value) e
  | appendUnder {parent : NodeId} {e : DomError} (h : d.NotElement parent e) (child : NodeId) :
    d.Fails (.appendChild parent child) e
  | appendDead {parent child : NodeId} (hparent : d.isElement parent = true)
    (h : d.isLive child = false) : d.Fails (.appendChild parent child) (.unknownNode child)
  | appendAbove {parent child : NodeId} (hparent : d.isElement parent = true)
    (hchild : d.isLive child = true) (h : d.Below child parent) :
    d.Fails (.appendChild parent child) (.hierarchyRequest parent child)
  | remove {id : NodeId} (h : d.isLive id = false) : d.Fails (.remove id) (.unknownNode id)
  | parseUnder {parent : NodeId} {e : DomError} (h : d.NotElement parent e)
    (parser : MarkupParser) (markup : String) : d.Fails (.parseInto parser parent markup) e
  | parse {parser : MarkupParser} {parent : NodeId} {markup : String} {e : ParseError}
    (hparent : d.isElement parent = true) (h : parser markup = .error e) :
    d.Fails (.parseInto parser parent markup) (.parse e)

/-- An element is required, and any other handle is refused with what it is. -/
theorem requireElement_eq_error_iff {e : DomError} :
    d.requireElement id = .error e ↔ d.NotElement id e := by
  have helement : d.isElement id = true ↔ d.requireElement id = .ok () :=
    requireElement_eq_ok_iff.symm
  have hlive := isLive_eq_data? d id
  constructor
  · intro hrequire
    have hnot : d.isElement id = false := by
      rw [← Bool.not_eq_true, helement, hrequire]
      exact fun h => by cases h
    unfold requireElement at hrequire
    split at hrequire
    · cases hrequire
    · next data hdata =>
      cases hrequire
      exact .other (by rw [hlive, hdata]; rfl) hnot
    · next hdata =>
      cases hrequire
      exact .dead (by rw [hlive, hdata]; rfl)
  · rintro (hdead | ⟨hlive', hnot⟩)
    · exact requireElement_of_not_isLive hdead
    · unfold requireElement
      split
      · next e hdata => simp [isElement, element?, hdata] at hnot
      · rfl
      · next hdata => simp [hlive, hdata] at hlive'

/-- When an attribute cannot be set, and with which error. -/
theorem setAttribute_eq_error_iff {name value : String} {e : DomError} :
    d.setAttribute id name value = .error e ↔ d.Fails (.setAttribute id name value) e := by
  have hfails : d.Fails (.setAttribute id name value) e ↔ d.NotElement id e :=
    ⟨fun h => by cases h; assumption, fun h => .setAttribute h name value⟩
  rw [hfails, ← requireElement_eq_error_iff, setAttribute]
  split
  · next hrequire => simp [hrequire]
  · next hrequire => simp [hrequire]

/-- When a node cannot be put under another, and with which error. -/
theorem WellFormed.appendChild_eq_error_iff (h : d.WellFormed) {e : DomError} :
    d.appendChild parent child = .error e ↔ d.Fails (.appendChild parent child) e := by
  unfold appendChild
  constructor
  · intro hfail
    split at hfail
    · next hrequire =>
      cases hfail
      exact .appendUnder (requireElement_eq_error_iff.mp hrequire) child
    · next hrequire =>
      have hparent := requireElement_eq_ok_iff.mp hrequire
      split at hfail
      · next hdead =>
        cases hfail
        exact .appendDead hparent (by simpa using hdead)
      · next hlive =>
        split at hfail
        · next hcontains =>
          cases hfail
          exact .appendAbove hparent (by simpa using hlive)
            ((h.contains_iff (isLive_of_isElement hparent)).mp hcontains)
        · cases hfail
  · intro hfail
    cases hfail with
    | appendUnder hnot => rw [requireElement_eq_error_iff.mpr hnot]
    | appendDead hparent hdead => simp [requireElement_eq_ok_iff.mpr hparent, hdead]
    | appendAbove hparent hlive hbelow =>
      have hcontains := (h.contains_iff (isLive_of_isElement hparent)).mpr hbelow
      simp [requireElement_eq_ok_iff.mpr hparent, hlive, hcontains]

/-- When a node cannot be removed, and with which error. -/
theorem remove_eq_error_iff {e : DomError} :
    d.remove id = .error e ↔ d.Fails (.remove id) e := by
  unfold remove
  constructor
  · intro hfail
    split at hfail
    · cases hfail
    · next hdead =>
      cases hfail
      exact .remove (by simpa using hdead)
  · intro hfail
    cases hfail with
    | remove hdead => simp [hdead]

/-- When markup cannot be parsed into a node, and with which error. -/
theorem parseInto_eq_error_iff {parser : MarkupParser} {markup : String} {e : DomError} :
    parseInto parser d parent markup = .error e ↔
      d.Fails (.parseInto parser parent markup) e := by
  unfold parseInto
  constructor
  · intro hfail
    split at hfail
    · next hrequire =>
      cases hfail
      exact .parseUnder (requireElement_eq_error_iff.mp hrequire) parser markup
    · next hrequire =>
      split at hfail
      · next hparse =>
        cases hfail
        exact .parse (requireElement_eq_ok_iff.mp hrequire) hparse
      · cases hfail
  · intro hfail
    cases hfail with
    | parseUnder hnot => rw [requireElement_eq_error_iff.mpr hnot]
    | parse hparent hparse => rw [requireElement_eq_ok_iff.mpr hparent, hparse]

/-- Edits that fail leave the tree as it is. -/
theorem Fails.perform_eq (h : d.WellFormed) {op : Operation} {e : DomError}
    (hfails : d.Fails op e) : d.perform op = d := by
  cases op with
  | createElement tag => cases hfails
  | createText content => cases hfails
  | setAttribute id name value =>
    simp [perform, after, setAttribute_eq_error_iff.mpr hfails]
  | appendChild parent child =>
    simp [perform, after, h.appendChild_eq_error_iff.mpr hfails]
  | remove id =>
    simp [perform, after, remove_eq_error_iff.mpr hfails]
  | parseInto parser parent markup =>
    simp [perform, after, parseInto_eq_error_iff.mpr hfails, Except.map]
  | patch target stream => cases hfails

/-- What edits report. -/
theorem WellFormed.outcome_eq_error_iff (h : d.WellFormed) {op : Operation} {e : DomError}
    (hop : ∀ target stream, op ≠ .patch target stream) :
    d.outcome op = .error e ↔ d.Fails op e := by
  have hmap : ∀ {α β : Type} (result : Except DomError α) (f : α → β),
      result.map f = .error e ↔ result = .error e := by
    intro α β result f
    cases result <;> simp [Except.map]
  cases op with
  | createElement tag => constructor <;> intro hfail <;> cases hfail
  | createText content => constructor <;> intro hfail <;> cases hfail
  | setAttribute id name value => rw [outcome, hmap, setAttribute_eq_error_iff]
  | appendChild parent child => rw [outcome, hmap, h.appendChild_eq_error_iff]
  | remove id => rw [outcome, hmap, remove_eq_error_iff]
  | parseInto parser parent markup => rw [outcome, hmap, parseInto_eq_error_iff]
  | patch target stream => exact absurd rfl (hop target stream)

/-! ## Moves -/

/-- The node is under the target, or under none.  The target lists it last; the other children that
nodes have stay as they are and in their order, and nothing else changes. -/
structure Moved (d d' : Dom) (id : NodeId) (target : Option NodeId) : Prop where
  data : ∀ x, d'.data? x = d.data? x
  parent : d'.parent? id = target
  parent_other : ∀ x, x ≠ id → d'.parent? x = d.parent? x
  children_target : ∀ p, target = some p → d'.children p = (d.children p).erase id ++ [id]
  children_other : ∀ p, target ≠ some p → d'.children p = (d.children p).erase id
  others : ∀ x, x ≠ id → target ≠ some x → d.parent? id ≠ some x → d'.entry? x = d.entry? x
  slots_size : d'.slots.size = d.slots.size
  free : d'.free = d.free
  lastPatch : d'.lastPatch = d.lastPatch

/-- To take a node out of the children is to erase it: it stands there at most once. -/
theorem WellFormed.filter_children (h : d.WellFormed) (id x : NodeId) :
    (d.children x).filter (fun c => c != id) = (d.children x).erase id :=
  ((h.children_nodup x).erase_eq_filter id).symm

theorem free_detach (d : Dom) (id : NodeId) : (d.detach id).free = d.free := by
  unfold detach
  split
  · rfl
  · rw [free_modify, free_modify]

theorem lastPatch_detach (d : Dom) (id : NodeId) : (d.detach id).lastPatch = d.lastPatch := by
  unfold detach
  split
  · rfl
  · rw [lastPatch_modify, lastPatch_modify]

theorem free_insertLast (d : Dom) (parent child : NodeId) :
    (d.insertLast parent child).free = d.free := by
  rw [insertLast, insertChild, free_modify, free_modify, free_detach]

theorem lastPatch_insertLast (d : Dom) (parent child : NodeId) :
    (d.insertLast parent child).lastPatch = d.lastPatch := by
  rw [insertLast, insertChild, lastPatch_modify, lastPatch_modify, lastPatch_detach]

/-- A node that is taken from its parent is under none. -/
theorem WellFormed.moved_detach (h : d.WellFormed) (id : NodeId) :
    d.Moved (d.detach id) id none where
  data := data?_detach h id
  parent := by rw [parent?_detach h, if_pos rfl]
  parent_other := fun x hx => by rw [parent?_detach h, if_neg hx]
  children_target := fun p hp => by cases hp
  children_other := fun p _ => by rw [children_detach h, h.filter_children]
  others := by
    intro x hx _ hparent
    have hsame := map_filter_children h hparent
    rw [entry?_detach h]
    simp only [if_neg hx]
    exact hsame
  slots_size := slots_size_detach d id
  free := free_detach d id
  lastPatch := lastPatch_detach d id

/-- A node that is put at the end of the children of another is there and nowhere else. -/
theorem WellFormed.moved_insertLast (h : d.WellFormed) (hparent : d.isLive parent = true)
    (hchild : d.isLive child = true) (hne : parent ≠ child) :
    d.Moved (d.insertLast parent child) child (some parent) where
  data := data?_insertChild h hne _
  parent := by rw [insertLast, parent?_insertChild h hne hchild, if_pos rfl]
  parent_other := fun x hx => by rw [insertLast, parent?_insertChild h hne hchild, if_neg hx]
  children_target := by
    rintro p ⟨⟩
    -- The index is the number of children before the node is taken out; it is cut down after.
    have hle : ((d.children parent).erase child).length ≤ (d.children parent).length :=
      (List.erase_sublist).length_le
    rw [insertLast, children_insertChild h hne hparent]
    simp only [if_true]
    rw [h.filter_children, Nat.min_eq_right hle, List.insertIdx_length_self]
  children_other := by
    intro p hp
    have hpp : p ≠ parent := fun heq => hp (congrArg some heq.symm)
    rw [insertLast, children_insertChild h hne hparent]
    simp only [if_neg hpp]
    exact h.filter_children child p
  others := by
    intro x hx hp hold
    have hxp : x ≠ parent := fun heq => hp (congrArg some heq.symm)
    rw [insertLast, entry?_insertChild h hne]
    simp only [if_neg hx, if_neg hxp]
    exact map_filter_children h hold
  slots_size := slots_size_insertChild d _ _ _
  free := free_insertLast d parent child
  lastPatch := lastPatch_insertLast d parent child

/-! ## Attributes -/

/-- An attribute has a value; an id is the key, unless there is a key already.  Nothing else
changes. -/
structure AttributeSet (d d' : Dom) (id : NodeId) (name value : String) : Prop where
  attribute_self : d'.attribute? id name = some value
  attribute_other : ∀ other, other ≠ name → d'.attribute? id other = d.attribute? id other
  tag : d'.tag? id = d.tag? id
  key : d'.key? id = (d.key? id).or (if name = "id" then some value else none)
  parent : d'.parent? id = d.parent? id
  children : d'.children id = d.children id
  others : ∀ x, x ≠ id → d'.entry? x = d.entry? x
  slots_size : d'.slots.size = d.slots.size
  free : d'.free = d.free
  lastPatch : d'.lastPatch = d.lastPatch

/-- A look-up of another name finds what it did. -/
theorem find?_setIn_other {name other : String} (hne : other ≠ name) (value : String)
    (attrs : List Attribute) :
    Attribute.find? (setIn name value attrs) other = Attribute.find? attrs other := by
  induction attrs with
  | nil => simp [setIn, Attribute.find?, Ne.symm hne]
  | cons a rest ih =>
    unfold Attribute.find? at ih ⊢
    by_cases ha : a.name = name
    · simp [setIn, ha, Ne.symm hne]
    · rw [setIn, if_neg ha, List.find?_cons, List.find?_cons]
      by_cases hother : a.name = other
      · simp [hother]
      · have hskip : (a.name == other) = false := by simpa using hother
        simp only [hskip]
        exact ih

/-- To set an attribute changes one element, and there its key and the value of the name. -/
theorem attributeSet_of_eq_ok {name value : String}
    (hset : d.setAttribute id name value = .ok d') : d.AttributeSet d' id name value := by
  unfold setAttribute at hset
  split at hset
  · next hrequire =>
    cases hset
    obtain ⟨e, he⟩ := Option.isSome_iff_exists.mp (requireElement_eq_ok_iff.mp hrequire)
    obtain ⟨d', hset, he'⟩ := element?_setAttribute he name value
    rw [setAttribute, hrequire] at hset
    cases hset
    exact
      { attribute_self := by
          rw [Dom.attribute?, he', Option.bind_some]
          exact find?_setIn name value e.attrs
        attribute_other := by
          intro other hne
          rw [Dom.attribute?, Dom.attribute?, he', he, Option.bind_some, Option.bind_some]
          exact find?_setIn_other hne value e.attrs
        tag := by rw [tag?, tag?, he', he]; rfl
        key := by
          rw [key?, key?, he', he, Option.bind_some, Option.bind_some]
          cases hkey : e.key <;> by_cases hname : name = "id" <;> simp [setOn, hkey, hname]
        parent := parent?_modify d id (fun e => by split <;> rfl) id
        children := children_modify d id (fun e => by split <;> rfl) id
        others := fun x hx => by rw [modifyElement, entry?_modify, if_neg hx]
        slots_size := slots_size_modifyElement d id _
        free := free_modify d id _
        lastPatch := lastPatch_modify d id _ }
  · cases hset

/-! ## Imports -/

/-- New live nodes, tree by tree, at the end of the children of an element.  Each tree is appended
as any node is, and where that fails the live tree is left as it is then. -/
def importEach (d : Dom) (parent : NodeId) : List Node → Except DomError (List NodeId) × Dom
  | [] => (.ok [], d)
  | n :: rest =>
    match d.importNode n with
    | (none, d) => importEach d parent rest
    | (some child, d) =>
      match d.appendChild parent child with
      | .error e => (.error e, d)
      | .ok d =>
        let (result, d) := importEach d parent rest
        (result.map (child :: ·), d)

/-- The nodes of markup, tree by tree, at the end of the children of an element. -/
def parseEach (parser : MarkupParser) (d : Dom) (parent : NodeId) (markup : String) :
    Except DomError (List NodeId) × Dom :=
  match d.requireElement parent with
  | .error e => (.error e, d)
  | .ok () =>
    match parser markup with
    | .error e => (.error (.parse e), d)
    | .ok f => d.importEach parent (f.forest Fragment.root)

/-- A new tree can be appended to an old element. -/
theorem NewRoot.appendChild_eq (hnew : d.NewRoot d' child) (h : d.WellFormed)
    (h' : d'.WellFormed) (hsame : d.Unchanged d') (hparent : d.isElement parent = true) :
    d'.appendChild parent child = .ok (d'.insertLast parent child) := by
  have hlive := isLive_of_isElement hparent
  have hparent' : d'.isElement parent = true :=
    (isElement_congr (data?_children_congr (hsame parent hlive)).1).trans hparent
  have hcontains : d'.contains child parent = false := by
    rw [← Bool.not_eq_true, h'.contains_iff (isLive_of_isElement hparent')]
    exact hnew.not_below h hsame hlive
  rw [appendChild, requireElement_eq_ok_iff.mpr hparent']
  simp [hnew.live, hcontains, insertLast]

/-- No append stops an import.  It puts the new trees after the children that were there. -/
theorem importEach_eq :
    ∀ (ns : List Node) {d : Dom}, d.WellFormed → d.isElement parent = true →
      (importNodes d parent ns).2.slots.size ≤ maxSlots →
      d.importEach parent ns = (.ok (importNodes d parent ns).1, (importNodes d parent ns).2) ∧
        (importNodes d parent ns).2.children parent =
          d.children parent ++ (importNodes d parent ns).1
  | [], d, _, _, _ => ⟨rfl, (List.append_nil _).symm⟩
  | n :: rest, d, h, hparent, hsize => by
    rw [importNodes_snd] at hsize
    have hlive := isLive_of_isElement hparent
    obtain ⟨h₁, hsame, hnew⟩ :=
      importNode_spec h n ((slots_size_importNode_le d parent n rest).trans hsize)
    have hkept := data?_children_congr (hsame parent hlive)
    have hparent₁ := (isElement_congr hkept.1).trans hparent
    rw [importUnder] at hsize
    rw [importEach, importNodes]
    generalize importNode d n = imported at h₁ hsame hnew hkept hparent₁ hsize ⊢
    obtain ⟨_ | child, d₁⟩ := imported
    · have hrest := importEach_eq rest h₁ hparent₁ (by rw [importNodes_snd]; exact hsize)
      rw [hkept.2] at hrest
      exact hrest
    · have hroot := hnew child rfl
      have hput := hroot.grownUnder_insertLast h h₁ hsame hlive
      have hdata : (d₁.insertLast parent child).data? parent = d₁.data? parent :=
        data?_insertChild h₁ (hroot.ne hlive) _ parent
      have hchildren := hroot.children_insertLast h₁ (hroot.ne hlive) (hsame.isLive hlive) parent
      rw [if_pos rfl, hkept.2] at hchildren
      obtain ⟨heach, hadded⟩ := importEach_eq rest hput.wellFormed
        ((isElement_congr hdata).trans hparent₁) (by rw [importNodes_snd]; exact hsize)
      simp only [hroot.appendChild_eq h h₁ hsame hparent, heach, hadded, hchildren]
      exact ⟨rfl, List.append_assoc _ _ _⟩

/-- To parse tree by tree is to parse at once. -/
theorem WellFormed.parseEach_eq (h : d.WellFormed) {parser : MarkupParser} {markup : String}
    (hsize : (d.perform (.parseInto parser parent markup)).slots.size ≤ maxSlots) :
    parseEach parser d parent markup =
      (d.outcome (.parseInto parser parent markup),
        d.perform (.parseInto parser parent markup)) := by
  simp only [outcome, Dom.perform] at hsize ⊢
  unfold parseEach
  unfold parseInto at hsize ⊢
  cases hrequire : d.requireElement parent with
  | error e => rfl
  | ok _ =>
    simp only [hrequire] at hsize ⊢
    cases hparse : parser markup with
    | error e => rfl
    | ok f =>
      rw [hparse] at hsize
      exact (importEach_eq _ h (requireElement_eq_ok_iff.mp hrequire) hsize).1

/-! ## Reachable trees -/

/-- What moves a node to the end of the children of an element. -/
theorem WellFormed.appendChild_moves (h : d.WellFormed)
    (happend : d.appendChild parent child = .ok d') : d.Moved d' child (some parent) := by
  obtain ⟨hparent, hchild, hcontains, rfl⟩ := appendChild_eq_ok happend
  have hlive := isLive_of_isElement hparent
  refine h.moved_insertLast hlive hchild ?_
  rintro rfl
  rw [(h.contains_iff hlive).mpr (Below.refl d parent)] at hcontains
  cases hcontains

/-- A node that is removed moves to no parent. -/
theorem WellFormed.remove_moves (h : d.WellFormed) (hremove : d.remove id = .ok d') :
    d.Moved d' id none := by
  unfold remove at hremove
  split at hremove
  · cases hremove
    exact h.moved_detach id
  · cases hremove

/-- New nodes follow the children that were there, and no other old node changes. -/
theorem WellFormed.parseInto_appends (h : d.WellFormed) {parser : MarkupParser} {markup : String}
    {added : List NodeId} (hparse : parseInto parser d parent markup = .ok (added, d'))
    (hsize : d'.slots.size ≤ maxSlots) :
    d'.children parent = d.children parent ++ added ∧
      ∀ x, d.isLive x = true → x ≠ parent → d'.entry? x = d.entry? x := by
  have helement := (parseInto_eq_ok hparse).1
  obtain ⟨ns, hresult⟩ := importNodes_of_parseInto hparse
  have hadded : added = (importNodes d parent ns).1 := congrArg Prod.fst hresult
  have himported : d' = (importNodes d parent ns).2 := congrArg Prod.snd hresult
  subst hadded himported
  refine ⟨(importEach_eq ns h helement hsize).2, ?_⟩
  rw [importNodes_snd] at hsize ⊢
  exact (importUnder_spec h (isLive_of_isElement helement) ns hsize).others

/-- In a reachable tree an edit fails for the reasons that are listed and for no others, and then it
changes nothing.  Otherwise it succeeds.  An appended node is the last child of its parent, a node
that is taken out has none, and an attribute has its value, with nothing else changed.  Markup is
parsed as if each of its trees were appended by itself, after the children that were there. -/
theorem Reachable.edits_exact (h : d.Reachable) (hsize : d.slots.size ≤ maxSlots) :
    (∀ op error, (∀ target stream, op ≠ .patch target stream) →
      (d.outcome op = .error error ↔ d.Fails op error)) ∧
    (∀ op error, d.Fails op error → d.perform op = d) ∧
    (∀ parent child, (∀ error, ¬ d.Fails (.appendChild parent child) error) →
      d.outcome (.appendChild parent child) = .ok [] ∧
        d.Moved (d.perform (.appendChild parent child)) child (some parent)) ∧
    (∀ id, (∀ error, ¬ d.Fails (.remove id) error) →
      d.outcome (.remove id) = .ok [] ∧ d.Moved (d.perform (.remove id)) id none) ∧
    (∀ id name value, (∀ error, ¬ d.Fails (.setAttribute id name value) error) →
      d.outcome (.setAttribute id name value) = .ok [] ∧
        d.AttributeSet (d.perform (.setAttribute id name value)) id name value) ∧
    (∀ parser parent markup,
      (d.perform (.parseInto parser parent markup)).slots.size ≤ maxSlots →
      let parsed := d.perform (.parseInto parser parent markup)
      parseEach parser d parent markup = (d.outcome (.parseInto parser parent markup), parsed) ∧
      ∀ added, d.outcome (.parseInto parser parent markup) = .ok added →
        parsed.children parent = d.children parent ++ added ∧
          ∀ x, d.isLive x = true → x ≠ parent → parsed.entry? x = d.entry? x) := by
  have hwf := h.wellFormed hsize
  refine ⟨fun op error hop => hwf.outcome_eq_error_iff hop, fun op error => Fails.perform_eq hwf,
    ?_, ?_, ?_, ?_⟩
  · intro parent child hfine
    simp only [outcome, Dom.perform]
    cases happend : d.appendChild parent child with
    | error e => exact absurd (hwf.appendChild_eq_error_iff.mp happend) (hfine e)
    | ok d' => exact ⟨rfl, hwf.appendChild_moves happend⟩
  · intro id hfine
    simp only [outcome, Dom.perform]
    cases hremove : d.remove id with
    | error e => exact absurd (remove_eq_error_iff.mp hremove) (hfine e)
    | ok d' => exact ⟨rfl, hwf.remove_moves hremove⟩
  · intro id name value hfine
    simp only [outcome, Dom.perform]
    cases hset : d.setAttribute id name value with
    | error e => exact absurd (setAttribute_eq_error_iff.mp hset) (hfine e)
    | ok d' => exact ⟨rfl, attributeSet_of_eq_ok hset⟩
  · intro parser parent markup hfits
    refine ⟨hwf.parseEach_eq hfits, ?_⟩
    simp only [outcome, Dom.perform] at hfits ⊢
    intro added hok
    cases hparse : Dom.parseInto parser d parent markup with
    | error e =>
      rw [hparse] at hok
      cases hok
    | ok result =>
      obtain ⟨added', d'⟩ := result
      rw [hparse] at hok hfits
      cases hok
      exact hwf.parseInto_appends hparse hfits

/-- In a list of three items, the first is moved to the end of the same list, the list is not put
under an item or under itself, and markup with a directive between two nodes is parsed into an
item. -/
theorem Reachable.edits_exact_in_list :
    let items := Fragment.ofNodes [.element "li" [] [], .element "li" [] [], .element "li" [] []]
    let d := [Operation.createElement "ul", .parseInto (fun _ => .ok items) ⟨0, 0⟩ ""].foldl
      Dom.perform {}
    let parser : MarkupParser := fun _ =>
      .ok (Fragment.ofNodes [.text "t", .directive "!x", .element "b" [] [.comment "c"]])
    d.slots.size ≤ maxSlots ∧ d.children ⟨0, 0⟩ = [⟨1, 0⟩, ⟨2, 0⟩, ⟨3, 0⟩] ∧
      (d.perform (.appendChild ⟨0, 0⟩ ⟨1, 0⟩)).children ⟨0, 0⟩ = [⟨2, 0⟩, ⟨3, 0⟩, ⟨1, 0⟩] ∧
      d.outcome (.appendChild ⟨2, 0⟩ ⟨0, 0⟩) = .error (.hierarchyRequest ⟨2, 0⟩ ⟨0, 0⟩) ∧
      d.outcome (.appendChild ⟨0, 0⟩ ⟨0, 0⟩) = .error (.hierarchyRequest ⟨0, 0⟩ ⟨0, 0⟩) ∧
      d.perform (.appendChild ⟨2, 0⟩ ⟨0, 0⟩) = d ∧
      (parseEach parser d ⟨2, 0⟩ "").1 = .ok [⟨4, 0⟩, ⟨5, 0⟩] ∧
      (parseEach parser d ⟨2, 0⟩ "").2.children ⟨2, 0⟩ = [⟨4, 0⟩, ⟨5, 0⟩] := by
  intro items d parser
  have hsize : d.slots.size ≤ maxSlots := by decide +kernel
  obtain ⟨hfails, hkept, happend, -, -, hparse⟩ :=
    (Reachable.empty.foldl_perform _).edits_exact hsize
  have hchildren : d.children ⟨0, 0⟩ = [⟨1, 0⟩, ⟨2, 0⟩, ⟨3, 0⟩] := by decide +kernel
  have hmove : ∀ error, ¬ d.Fails (.appendChild ⟨0, 0⟩ ⟨1, 0⟩) error := by
    intro error hfail
    have herror := (hfails _ _ (fun _ _ => Operation.noConfusion)).mpr hfail
    have hok : d.outcome (.appendChild ⟨0, 0⟩ ⟨1, 0⟩) = .ok [] := by decide +kernel
    cases hok.symm.trans herror
  have hmoved := (happend _ _ hmove).2.children_target _ rfl
  have hbelow : d.Fails (.appendChild ⟨2, 0⟩ ⟨0, 0⟩) (.hierarchyRequest ⟨2, 0⟩ ⟨0, 0⟩) :=
    .appendAbove (by decide +kernel) (by decide +kernel)
      (below_of_parent? (show d.parent? ⟨2, 0⟩ = some ⟨0, 0⟩ by decide +kernel))
  have hself : d.Fails (.appendChild ⟨0, 0⟩ ⟨0, 0⟩) (.hierarchyRequest ⟨0, 0⟩ ⟨0, 0⟩) :=
    .appendAbove (by decide +kernel) (by decide +kernel) (Below.refl d _)
  have hfits : (d.perform (.parseInto parser ⟨2, 0⟩ "")).slots.size ≤ maxSlots := by
    decide +kernel
  obtain ⟨heach, hadded⟩ := hparse parser ⟨2, 0⟩ "" hfits
  have hok : d.outcome (.parseInto parser ⟨2, 0⟩ "") = .ok [⟨4, 0⟩, ⟨5, 0⟩] := by decide +kernel
  have hnone : d.children ⟨2, 0⟩ = [] := by decide +kernel
  refine ⟨hsize, hchildren, ?_, ?_, ?_, hkept _ _ hbelow, ?_, ?_⟩
  · rw [hmoved, hchildren]
    decide
  · exact (hfails _ _ (fun _ _ => Operation.noConfusion)).mpr hbelow
  · exact (hfails _ _ (fun _ _ => Operation.noConfusion)).mpr hself
  · rw [heach, hok]
  · rw [heach, (hadded _ hok).1, hnone, List.nil_append]

end Dom
end LiveMarkup
