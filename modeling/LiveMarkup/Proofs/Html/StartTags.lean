import LiveMarkup.Proofs.Html.Scanning

/-!
# Written start tags

What the writer puts down for a start tag is read as that tag, and only its last character completes
it.  This takes names and values that the lexer reads as they stand, and different names for the
attributes.

Main definitions:

- `Lexer.isName`, `Lexer.isLegibleTag`: what is read as it stands.
- `Lexer.InTag`: the states inside a start tag.

Main results:

- `Lexer.scans_attributes`: the attributes lead from one state inside the tag to another.
- `Lexer.scans_startTag`, `Lexer.spells_startTag`: the whole tag.
-/

namespace LiveMarkup
namespace Html
namespace Lexer

variable {s : State}

/-! ## Tags -/

/-- A character that is read as it stands in the name of a tag or of an attribute. -/
def isNameChar (c : Char) : Bool :=
  !endsName c && c != '=' && c != '\x00' && c.toLower == c

/-- A name that is read as it stands. -/
def isName (name : String) : Bool :=
  !name.isEmpty && name.toList.all isNameChar

/-- A character stands for itself in a name if it ends none, is no null and is in lower case. -/
theorem isNameChar_iff {c : Char} : isNameChar c ↔
    isBlank c = false ∧ c ≠ '/' ∧ c ≠ '>' ∧ c ≠ '=' ∧ c ≠ '\x00' ∧ c.toLower = c := by
  simp [isNameChar, endsName, and_assoc]

/-- A carriage return is a blank and stands in no name. -/
theorem ne_return_of_isNameChar {c : Char} (hc : isNameChar c) : c ≠ '\r' := by
  rintro rfl
  exact absurd hc (by decide)

/-- A character of a name begins an attribute. -/
theorem beforeAttrNext_of_isNameChar {c : Char} (hc : isNameChar c) (d : Draft) :
    beforeAttrNext d c = (.attrName (d.beginAttr c), []) := by
  obtain ⟨hblank, hslash, hgreater, -, hnull, hlower⟩ := isNameChar_iff.mp hc
  rw [beforeAttrNext, hblank, if_neg Bool.false_ne_true, if_neg hslash, if_neg hgreater, hlower,
    visible, if_neg hnull]

/-- The name of a tag adds its characters. -/
theorem scans_tagName {cs : List Char} (hcs : cs.all isNameChar) :
    ∀ d : Draft,
      Scans (.tagName d) cs [] (.tagName { d with name := d.name ++ String.ofList cs }) := by
  induction cs with
  | nil =>
    intro d
    simpa using Scans.nil (.tagName d)
  | cons c cs ih =>
    intro d
    simp only [List.all_cons, Bool.and_eq_true] at hcs
    obtain ⟨hblank, hslash, hgreater, -, hnull, hlower⟩ := isNameChar_iff.mp hcs.1
    rw [append_ofList_cons]
    refine .silent _ (ne_return_of_isNameChar hcs.1) (fun _ _ => ?_)
      (ih hcs.2 { d with name := d.name.push c })
    show tagNameNext d c = _
    rw [tagNameNext, hblank, if_neg Bool.false_ne_true, if_neg hslash, if_neg hgreater, hlower,
      visible, if_neg hnull]

/-- The name of an attribute adds its characters. -/
theorem scans_attrName {cs : List Char} (hcs : cs.all isNameChar) (d : Draft) :
    ∀ a : Attribute, Scans (.attrName { d with attr? := some a }) cs []
      (.attrName { d with attr? := some { a with name := a.name ++ String.ofList cs } }) := by
  induction cs with
  | nil =>
    intro a
    simpa using Scans.nil (.attrName { d with attr? := some a })
  | cons c cs ih =>
    intro a
    simp only [List.all_cons, Bool.and_eq_true] at hcs
    obtain ⟨hblank, hslash, hgreater, hequals, hnull, hlower⟩ := isNameChar_iff.mp hcs.1
    rw [append_ofList_cons]
    refine .silent _ (ne_return_of_isNameChar hcs.1) (fun _ _ => ?_)
      (ih hcs.2 { a with name := a.name.push c })
    show attrNameNext _ c = _
    rw [attrNameNext, hblank, if_neg Bool.false_ne_true, if_neg hslash, if_neg hequals,
      if_neg hgreater, hlower, visible, if_neg hnull]
    rfl

/-- A state inside a start tag, after its name and some attributes. -/
structure InTag (s : State) (name : String) (attrs : List Attribute) : Prop where
  close : ∀ lastStart foreign,
    next lastStart foreign s '>' = (.content .data, [.startTag { name, attrs }])
  space : ∃ s', (∀ lastStart foreign, next lastStart foreign s ' ' = (s', [])) ∧
    ∀ lastStart foreign c, isNameChar c → next lastStart foreign s' c =
      (.attrName { closing := false, name, attrs, attr? := some ⟨String.singleton c, ""⟩ }, [])

/-- A tag may end behind its name. -/
theorem inTag_tagName (name : String) : InTag (.tagName { closing := false, name }) name [] where
  close _ _ := rfl
  space := ⟨_, fun _ _ => rfl, fun _ _ _ hc => beforeAttrNext_of_isNameChar hc _⟩

variable {name : String} {attrs : List Attribute} {a : Attribute}

/-- A draft of a start tag in which an attribute is complete. -/
def drafted (name : String) (attrs : List Attribute) (a : Attribute) : Draft :=
  { closing := false, name, attrs, attr? := some a }

/-- A new attribute is settled behind the others. -/
theorem settle_drafted (hnew : a.name ∉ attrs.map (·.name)) :
    (drafted name attrs a).settle = { closing := false, name, attrs := attrs ++ [a] } := by
  have hany : (attrs.any fun b => b.name == a.name) = false := by
    rw [List.any_eq_false]
    intro b hb heq
    exact hnew (List.mem_map.mpr ⟨b, hb, eq_of_beq heq⟩)
  simp [drafted, Draft.settle, hany]

/-- The start tag of a draft has the new attribute behind the others. -/
theorem token_drafted (hnew : a.name ∉ attrs.map (·.name)) :
    (drafted name attrs a).token false = .startTag { name, attrs := attrs ++ [a] } := by
  rw [Draft.token, settle_drafted hnew]
  rfl

/-- To begin an attribute settles the one before it. -/
theorem beginAttr_drafted (hnew : a.name ∉ attrs.map (·.name)) (c : Char) :
    (drafted name attrs a).beginAttr c =
      { closing := false, name, attrs := attrs ++ [a],
        attr? := some ⟨String.singleton c, ""⟩ } := by
  rw [Draft.beginAttr, settle_drafted hnew]

/-- A tag may end behind the name of a new attribute. -/
theorem inTag_attrName (hnew : a.name ∉ attrs.map (·.name)) :
    InTag (.attrName (drafted name attrs a)) name (attrs ++ [a]) where
  close _ _ := congrArg (fun t => (State.content .data, [t])) (token_drafted hnew)
  space := by
    refine ⟨.afterAttrName (drafted name attrs a), fun _ _ => rfl, fun _ _ c hc => ?_⟩
    obtain ⟨hblank, -, -, hequals, -, -⟩ := isNameChar_iff.mp hc
    show afterAttrNameNext _ c = _
    rw [afterAttrNameNext, hblank, if_neg Bool.false_ne_true, if_neg hequals,
      beforeAttrNext_of_isNameChar hc, beginAttr_drafted hnew]

/-- A tag may end behind the value of a new attribute. -/
theorem inTag_afterValue (hnew : a.name ∉ attrs.map (·.name)) :
    InTag (.afterValue (drafted name attrs a)) name (attrs ++ [a]) where
  close _ _ := congrArg (fun t => (State.content .data, [t])) (token_drafted hnew)
  space := by
    refine ⟨.beforeAttr (drafted name attrs a), fun _ _ => rfl, fun _ _ c hc => ?_⟩
    show beforeAttrNext _ c = _
    rw [beforeAttrNext_of_isNameChar hc, beginAttr_drafted hnew]

/-- An attribute that is read as it stands. -/
def isLegibleAttribute (a : Attribute) : Bool :=
  isName a.name && a.value.toList.all isLegible

/-- A blank and the name of an attribute. -/
theorem scans_bareAttribute (h : InTag s name attrs) (hname : isName a.name) :
    Scans s (' ' :: a.name.toList) [] (.attrName (drafted name attrs ⟨a.name, ""⟩)) := by
  obtain ⟨s₁, hspace, hbegins⟩ := h.space
  simp only [isName, Bool.and_eq_true] at hname
  rcases hcs : a.name.toList with _ | ⟨c, cs⟩
  · have hempty : a.name = "" := String.toList_inj.mp hcs
    rw [hempty] at hname
    exact absurd hname.1 (by decide)
  · have hchars := hname.2
    rw [hcs, List.all_cons, Bool.and_eq_true] at hchars
    have hwhole : String.singleton c ++ String.ofList cs = a.name :=
      String.toList_inj.mp (by simp [hcs])
    have hrest := scans_attrName hchars.2 { closing := false, name, attrs } ⟨String.singleton c, ""⟩
    rw [hwhole] at hrest
    exact .silent _ (by decide) hspace (.silent _ (ne_return_of_isNameChar hchars.1)
      (fun _ _ => hbegins _ _ c hchars.1) hrest)

/-- The rest of an attribute with a value. -/
theorem scans_value (hvalue : a.value.toList.all isLegible) :
    Scans (.attrName (drafted name attrs ⟨a.name, ""⟩))
      ('=' :: '"' :: (a.value.toList.flatMap Markup.escapeAttributeChar ++ ['"'])) []
      (.afterValue (drafted name attrs a)) := by
  have hstart : InValue (.value (drafted name attrs ⟨a.name, ""⟩) (some '"'))
      (drafted name attrs ⟨a.name, ""⟩) := fun _ _ _ => rfl
  obtain ⟨s', hscans, hend⟩ := scans_escapeAttribute hvalue hstart
  have hdraft : a.value.toList.foldl Draft.pushAttrValue (drafted name attrs ⟨a.name, ""⟩) =
      drafted name attrs a := by
    have hfold := foldl_pushAttrValue { closing := false, name, attrs } ⟨a.name, ""⟩ a.value.toList
    rw [String.empty_append, String.ofList_toList] at hfold
    exact hfold
  rw [hdraft] at hend
  have hquote : ∀ lastStart foreign,
      next lastStart foreign s' '"' = (.afterValue (drafted name attrs a), []) := by
    intro _ _
    rw [hend, valueNext, if_pos rfl]
  exact .silent _ (by decide) (fun _ _ => rfl) (.silent _ (by decide) (fun _ _ => rfl)
    (hscans.append (.silent _ (by decide) hquote (.nil _))))

/-- An attribute of a start tag. -/
theorem scans_attributeText (h : InTag s name attrs) (ha : isLegibleAttribute a)
    (hnew : a.name ∉ attrs.map (·.name)) :
    ∃ s', Scans s (Markup.attributeText a).toList [] s' ∧ InTag s' name (attrs ++ [a]) := by
  simp only [isLegibleAttribute, Bool.and_eq_true] at ha
  have hbare := scans_bareAttribute h ha.1
  by_cases hempty : a.value = ""
  · have ha' : (⟨a.name, ""⟩ : Attribute) = a := by rw [← hempty]
    rw [ha'] at hbare
    refine ⟨_, ?_, inTag_attrName hnew⟩
    rw [Markup.attributeText, if_pos hempty]
    simpa using hbare
  · refine ⟨_, ?_, inTag_afterValue hnew⟩
    rw [Markup.attributeText, if_neg hempty]
    simpa [Markup.escapeAttribute] using hbare.append (scans_value ha.2)

/-- The attributes of a start tag. -/
theorem scans_attributes {more : List Attribute} (hmore : more.all isLegibleAttribute) :
    ∀ {s : State} {attrs : List Attribute}, InTag s name attrs →
      ((attrs ++ more).map (·.name)).Nodup →
        ∃ s', Scans s (String.join (more.map Markup.attributeText)).toList [] s' ∧
          InTag s' name (attrs ++ more) := by
  induction more with
  | nil =>
    intro s attrs h _
    rw [List.append_nil]
    exact ⟨s, .nil s, h⟩
  | cons a more ih =>
    intro s attrs h hnodup
    simp only [List.all_cons, Bool.and_eq_true] at hmore
    rw [List.append_cons] at hnodup ⊢
    have hnew : a.name ∉ attrs.map (·.name) := by
      rw [List.map_append, List.map_append] at hnodup
      have hfront := (List.nodup_append.mp hnodup).1
      exact fun hmem => (List.nodup_append.mp hfront).2.2 _ hmem a.name (by simp) rfl
    obtain ⟨s₁, hscans, h₁⟩ := scans_attributeText h hmore.1 hnew
    obtain ⟨s₂, hscans', h₂⟩ := ih hmore.2 h₁ hnodup
    refine ⟨s₂, ?_, h₂⟩
    simpa using hscans.append hscans'

/-- A start tag that is read as it stands: its name begins with a letter, and its attributes have
different names. -/
def isLegibleTag (name : String) (attrs : List Attribute) : Bool :=
  isName name && name.toList.head?.any Char.isAlpha && attrs.all isLegibleAttribute &&
    decide (attrs.map (·.name)).Nodup

/-- A name that begins with a letter. -/
theorem name_eq_of_isLegibleTag (h : isLegibleTag name attrs) :
    ∃ c cs, name.toList = c :: cs ∧ String.singleton c ++ String.ofList cs = name ∧ c.isAlpha ∧
      isNameChar c ∧ cs.all isNameChar := by
  simp only [isLegibleTag, isName, Bool.and_eq_true] at h
  obtain ⟨⟨⟨⟨-, hchars⟩, hhead⟩, -⟩, -⟩ := h
  rcases hcs : name.toList with _ | ⟨c, cs⟩
  · rw [hcs] at hhead
    exact absurd hhead (by decide)
  · rw [hcs] at hchars hhead
    rw [List.all_cons, Bool.and_eq_true] at hchars
    exact ⟨c, cs, rfl, String.toList_inj.mp (by simp [hcs]), by simpa using hhead, hchars.1,
      hchars.2⟩

/-- A letter after `<` begins a start tag. -/
theorem tagOpenNext_of_isAlpha {c : Char} (hc : c.isAlpha) (hname : isNameChar c) :
    tagOpenNext c = (.tagName { closing := false, name := String.singleton c }, []) := by
  obtain ⟨-, -, -, -, -, hlower⟩ := isNameChar_iff.mp hname
  have hne : c ≠ '!' ∧ c ≠ '/' ∧ c ≠ '?' :=
    ⟨by rintro rfl; exact absurd hc (by decide), by rintro rfl; exact absurd hc (by decide),
      by rintro rfl; exact absurd hc (by decide)⟩
  rw [tagOpenNext, if_neg hne.1, if_neg hne.2.1, if_neg hne.2.2, if_pos hc, hlower]

/-- Up to its last character a start tag completes nothing. -/
theorem scans_startTag (h : isLegibleTag name attrs) :
    ∃ body s', (Markup.startTag name attrs).toList = '<' :: body ++ ['>'] ∧
      Scans .tagOpen body [] s' ∧ InTag s' name attrs := by
  obtain ⟨c, cs, hcs, hwhole, halpha, hc, hrest⟩ := name_eq_of_isLegibleTag h
  simp only [isLegibleTag, Bool.and_eq_true, decide_eq_true_eq] at h
  obtain ⟨⟨-, hattrs⟩, hnodup⟩ := h
  have hname := scans_tagName hrest { closing := false, name := String.singleton c }
  simp only [hwhole] at hname
  obtain ⟨s', hscans, hend⟩ := scans_attributes hattrs (inTag_tagName name) hnodup
  have hopen : Scans .tagOpen (c :: cs) [] (.tagName { closing := false, name }) :=
    .silent _ (ne_return_of_isNameChar hc) (fun _ _ => tagOpenNext_of_isAlpha halpha hc) hname
  exact ⟨_, s', by simp [Markup.startTag, hcs], hopen.append hscans, hend⟩

/-- A start tag stands for itself. -/
theorem spells_startTag (h : isLegibleTag name attrs) :
    Spells (Markup.startTag name attrs).toList [.startTag { name, attrs }] := by
  obtain ⟨body, s', hchars, hscans, hend⟩ := scans_startTag h
  rw [hchars]
  exact Spells.of_scans (c := '<') (by decide) rfl
    (hscans.append (Scans.last (by decide) hend.close))

end Lexer
end Html
end LiveMarkup
