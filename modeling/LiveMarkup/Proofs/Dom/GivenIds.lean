import LiveMarkup.Proofs.Dom.Import
import LiveMarkup.Proofs.Patch.Keys

/-!
# Keys of ids that are set

An element that is imported or patched in has a key made of its id, in which at signs are doubled,
and none if the id is empty.  An id that is set on an element without key becomes the key as it
stands.  So the key is the one of that markup exactly if the id is neither empty nor holds an at
sign; any other id that is set hides the element from patches that author it, and an id in the form
of the key of a place makes the element pass for the one at that place.

Main results:

- `Key.authored_eq_self_iff`: which ids are their own keys.
- `Dom.element?_setAttribute`: what setting an attribute does.
- `Dom.isElementWith_setOn_id`: under which key patches find the element.
- `Dom.key_of_given_id`: the key of an id that is set, and when markup would give the same.
-/

namespace LiveMarkup

namespace Key

/-- An id is its own key exactly if there is no at sign in it. -/
theorem authored_eq_self_iff (id : String) : authored id = id ↔ '@' ∉ id.toList := by
  constructor
  · intro heq
    have hcount := count_authored id
    rw [heq] at hcount
    exact List.count_eq_zero.mp (by omega)
  · intro hnone
    have hkeep : id.toList.flatMap authoredChar = id.toList := by
      generalize id.toList = cs at hnone
      induction cs with
      | nil => rfl
      | cons c rest ih =>
        rw [List.mem_cons, not_or] at hnone
        rw [List.flatMap_cons, ih hnone.2, authoredChar, if_neg (Ne.symm hnone.1)]
        rfl
    rw [authored, hkeep, String.ofList_toList]

end Key

namespace Dom

variable {d : Dom}

/-- A look-up finds the value that was just set. -/
theorem find?_setIn (name value : String) (attrs : List Attribute) :
    Attribute.find? (setIn name value attrs) name = some value := by
  induction attrs with
  | nil => simp [setIn, Attribute.find?]
  | cons a rest ih =>
    unfold Attribute.find? at ih ⊢
    by_cases ha : a.name = name
    · simp [setIn, ha]
    · simp [setIn, ha, ih]

/-- The key that markup gives to an element with an id. -/
theorem authored?_setIn (id : String) (attrs : List Attribute) :
    Key.authored? (setIn "id" id attrs) = if id = "" then none else some (Key.authored id) := by
  rw [Key.authored?, find?_setIn]

/-- To set an attribute of a live element changes this element. -/
theorem element?_setAttribute {id : NodeId} {e : LiveElement} (he : d.element? id = some e)
    (name value : String) :
    ∃ d', d.setAttribute id name value = .ok d' ∧ d'.element? id = some (setOn name value e) := by
  have hrequire : d.requireElement id = .ok () := by
    rw [requireElement_eq_ok_iff, isElement, he]
    rfl
  refine ⟨d.modifyElement id (setOn name value), by rw [setAttribute, hrequire], ?_⟩
  unfold element? data? at he ⊢
  cases hentry : d.entry? id with
  | none => simp [hentry] at he
  | some entry =>
    obtain ⟨data, parent, children⟩ := entry
    cases data with
    | element held =>
      simp only [hentry, Option.map_some, Option.some.injEq] at he
      rw [modifyElement, entry?_modify, if_pos rfl, hentry]
      simp only [Option.map_some, he]
    | text content => simp [hentry] at he
    | comment content => simp [hentry] at he

/-- Patches find an element on which an id was set exactly under that id. -/
theorem isElementWith_setOn_id {e : LiveElement} (hkey : e.key = none) (given tag key : String) :
    Patcher.isElementWith tag key (.element (setOn "id" given e)) = true ↔
      e.tag = tag ∧ given = key := by
  simp [Patcher.isElementWith, setOn, hkey]

/-- An id that is set on an element without key becomes its key as it stands, and patches find the
element under it and under no other key.  It is the key that markup with the same attributes gives
exactly if it is not empty and there is no at sign in it. -/
theorem key_of_given_id {id : NodeId} {e : LiveElement} (he : d.element? id = some e)
    (hkey : e.key = none) (given : String) :
    ∃ d' e', d.setAttribute id "id" given = .ok d' ∧ d'.element? id = some e' ∧
      e'.key = some given ∧
      (∀ tag key, Patcher.isElementWith tag key (.element e') = true ↔
        e.tag = tag ∧ given = key) ∧
      (e'.key = Key.authored? e'.attrs ↔ given ≠ "" ∧ '@' ∉ given.toList) := by
  obtain ⟨d', hset, he'⟩ := element?_setAttribute he "id" given
  have hgiven : (setOn "id" given e).key = some given := by
    simp [setOn, hkey]
  refine ⟨d', setOn "id" given e, hset, he', hgiven, isElementWith_setOn_id hkey given, ?_⟩
  have hattrs : (setOn "id" given e).attrs = setIn "id" given e.attrs := rfl
  rw [hgiven, hattrs, authored?_setIn, ← Key.authored_eq_self_iff]
  by_cases hempty : given = ""
  · simp [hempty]
  · simp [hempty, eq_comm]

/-- A paragraph on which an id with an at sign is set: its key is not the one that markup gives, and
patches do not find it under that one. -/
theorem key_of_given_id_with_sign :
    let d := perform {} (.createElement "p")
    d.element? ⟨0, 0⟩ = some { tag := "p" } ∧
      ∃ d' e', d.setAttribute ⟨0, 0⟩ "id" "a@b" = .ok d' ∧ d'.element? ⟨0, 0⟩ = some e' ∧
        e'.key = some "a@b" ∧ e'.key ≠ Key.authored? e'.attrs ∧
        Patcher.isElementWith "p" (Key.authored "a@b") (.element e') = false := by
  intro d
  have he : d.element? ⟨0, 0⟩ = some { tag := "p" } := by decide
  obtain ⟨d', e', hset, he', hgiven, hfinds, hsame⟩ := key_of_given_id he rfl "a@b"
  refine ⟨he, d', e', hset, he', hgiven, hsame.not.mpr (by decide), ?_⟩
  rw [← Bool.not_eq_true, hfinds]
  decide

/-- A paragraph with the key of the first place as its id: a patch with that id at this place frees
it, and a patch without any id takes it over. -/
example :
    let d := [Operation.createElement "div", .createElement "p", .setAttribute ⟨1, 0⟩ "id" "@0",
      .appendChild ⟨0, 0⟩ ⟨1, 0⟩].foldl perform {}
    let patched := fun attrs =>
      ((Fragment.ofNodes [.element "p" attrs []]).compile .structural Key.generated).map
        fun stream => (d.patch ⟨0, 0⟩ stream).2.children ⟨0, 0⟩
    patched [⟨"id", "@0"⟩] = .ok [⟨2, 0⟩] ∧ patched [] = .ok [⟨1, 0⟩] := by
  decide +kernel

end Dom
end LiveMarkup
