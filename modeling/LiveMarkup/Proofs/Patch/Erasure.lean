import LiveMarkup.Patch.Transcript
import LiveMarkup.Proofs.Markup.Elements
import LiveMarkup.Proofs.Patch.KeyChains
import LiveMarkup.Proofs.Patch.Keys
import LiveMarkup.Proofs.Patch.Refusals

/-!
# What the identity of elements decides

Two compilations of a fragment that leave out the same attributes differ at most in the keys of the
elements without an id, whatever their identities are and whatever keys they draw.  Without these
keys both are the draft that lacks them, and both fail in the same way if they fail.  Keys in the
form of generated ones are masked in transcripts, so there the difference does not show.

Main definitions:

- `Instruction.erase`: a stream without the keys of some elements.
- `Fragment.eraseKeys`: a stream without the keys of the elements without an id.

Main results:

- `Draft.erase_assign`: without these keys, the instructions of nodes are their draft.
- `PatchCompiler.map_eraseKeys_compileStack`: without these keys, what is compiled is the draft
  under generated identity.
- `Transcript.lines_assign`: keys that are drawn do not show in transcripts.
- `PatchCompiler.identity_decides_missing_keys`: two compilations of a fragment compared.
-/

namespace LiveMarkup

/-- A stream without the keys of the elements that have no id, given for each element, in the order
in which they are opened, whether it has one. -/
def Instruction.erase : List Bool → List Instruction → List Draft
  | _, [] => []
  | [], .openElement tag key attrs :: rest => .openElement tag (some key) attrs :: erase [] rest
  | authored :: later, .openElement tag key attrs :: rest =>
    .openElement tag (if authored then some key else none) attrs :: erase later rest
  | marks, .closeElement tag :: rest => .closeElement tag :: erase marks rest
  | marks, .text content :: rest => .text content :: erase marks rest

/-- The stream of a fragment without the keys of the elements without an id. -/
def Fragment.eraseKeys (f : Fragment) (stream : List Instruction) : List Draft :=
  Instruction.erase (f.elements.map fun id => (f.authoredKey? id).isSome) stream

/-- The elements with an id are those that have one among the trees of the fragment. -/
theorem Fragment.map_authoredKey?_elements (f : Fragment) :
    (f.elements.map fun id => (f.authoredKey? id).isSome) =
      (Node.elementsAll (f.forest root)).map Node.isAuthored := by
  have hnode : ∀ id,
      (f.authoredKey? id).isSome = ((f.node? id).map Node.isAuthored).getD false := by
    intro id
    cases hcontent : f.content? id with
    | none => simp [authoredKey?, node?, hcontent]
    | some content => cases content <;> simp [authoredKey?, node?, hcontent, Content.attrs] <;> rfl
  have hmarks := congrArg (List.map fun n? => (Option.map Node.isAuthored n?).getD false)
    f.map_node?_elements
  rw [List.map_map, List.map_map] at hmarks
  simp only [hnode]
  exact hmarks

namespace Draft

/-- Under generated identity only authored keys are known. -/
theorem knownKey_of_generated {config : PatchConfig} (hconfig : config.identity = .generated)
    (place : Place) (position : Nat) (authored : Option String) :
    knownKey config place position authored = authored := by
  cases authored <;> simp [knownKey, hconfig]

/-- Without the keys of elements without an id, the instructions of nodes are the draft that lacks
these keys. -/
theorem erase_assign {config bare : PatchConfig} (hbare : bare.identity = .generated)
    (hdrop : config.dropEmptyAttributes = bare.dropEmptyAttributes) (supply : Nat → String)
    {place : Place} {position : Nat} {top : Bool} {ns : List Node} {drafts drafts' : List Draft}
    (h : Drafted config place position top ns drafts)
    (h' : Drafted bare place position top ns drafts') (n : Nat) (marks : List Bool)
    (rest : List Instruction) :
    Instruction.erase ((Node.elementsAll ns).map Node.isAuthored ++ marks)
        (assign supply n drafts ++ rest) =
      drafts' ++ Instruction.erase marks rest := by
  -- Each node uses up its own marks and instructions; whatever comes behind them stays.
  induction h generalizing drafts' n marks rest with
  | nil =>
    cases h'
    rfl
  | @element place position top tag attrs children others inner after _ _ ihinner ihothers =>
    cases h' with
    | element hinner' hothers' =>
      obtain ⟨m, m', hassign⟩ := assign_element supply n tag
        (knownKey config place position (Key.authored? attrs)) (keptAttributes config attrs) inner
        after
      have hkey : (if (Node.element tag attrs children).isAuthored then
          some ((knownKey config place position (Key.authored? attrs)).getD (supply n)) else none) =
            knownKey bare place position (Key.authored? attrs) := by
        rw [knownKey_of_generated hbare, Node.isAuthored]
        cases Key.authored? attrs <;> simp [knownKey]
      rw [hassign, Node.elementsAll, Node.elements]
      simp only [List.cons_append, List.map_cons, List.map_append, List.append_assoc,
        Instruction.erase, hkey, keptAttributes_congr hdrop, ihinner hinner', ihothers hothers']
  | @text place position top data others after _ ihothers =>
    cases h' with
    | text hothers' =>
      rw [Node.elementsAll, Node.elements, List.nil_append]
      split
      · exact ihothers hothers' n marks rest
      · exact congrArg (List.cons _) (ihothers hothers' n marks rest)

end Draft

namespace Transcript

/-- Keys that are drawn do not show in a transcript, if they have the form of generated ones. -/
theorem lines_assign {supply supply' : Nat → String} (hsupply : ∀ n, Key.isHex32 (supply n) = true)
    (hsupply' : ∀ n, Key.isHex32 (supply' n) = true) (drafts : List Draft) (depth n n' : Nat) :
    lines depth (Draft.assign supply n drafts) = lines depth (Draft.assign supply' n' drafts) := by
  induction drafts generalizing depth n n' with
  | nil => rfl
  | cons draft rest ih =>
    cases draft with
    | openElement tag key attrs =>
      cases key with
      | some key => simp only [Draft.assign, lines, nextDepth, ih _ n n']
      | none =>
        have hbody : body (.openElement tag (supply n) attrs) =
            body (.openElement tag (supply' n') attrs) := by
          rw [body, body, shownKey, shownKey, if_pos (hsupply n), if_pos (hsupply' n')]
        simp only [Draft.assign, lines, nextDepth, lineDepth, hbody, ih _ (n + 1) (n' + 1)]
    | closeElement tag => simp only [Draft.assign, lines, nextDepth, ih _ n n']
    | text content => simp only [Draft.assign, lines, nextDepth, ih _ n n']

end Transcript

namespace PatchCompiler

/-- Without the keys of elements without an id, what is compiled from a source is the draft of its
fragment under generated identity, and it fails like that. -/
theorem map_eraseKeys_compileStack {c : PatchCompiler} {bare : PatchConfig}
    (hbare : bare.identity = .generated)
    (hdrop : c.config.dropEmptyAttributes = bare.dropEmptyAttributes) {source : String}
    {f : Fragment} (hparse : c.parser source = .ok f) :
    (c.compileStack source).1.map f.eraseKeys = f.draft bare := by
  have hraised : PatchError.raised? (f.draft bare) =
      PatchError.raised? (c.compileStack source).1 := by
    rw [raised?_compileStack hparse, Fragment.draft, Draft.raised?_ofNodes]
  cases hcompile : (c.compileStack source).1 with
  | error e =>
    rw [hcompile] at hraised
    exact (PatchError.raised?_eq_some_iff.mp hraised).symm
  | ok stream =>
    obtain ⟨drafts, hdraft, rfl⟩ := exists_draft_of_compileStack hparse hcompile
    cases hdraft' : f.draft bare with
    | error e =>
      rw [hcompile, hdraft'] at hraised
      cases hraised
    | ok drafts' =>
      have herase := Draft.erase_assign hbare hdrop c.supply (Draft.drafted_of_draft hdraft)
        (Draft.drafted_of_draft hdraft') c.drawn [] []
      rw [List.append_nil, List.append_nil, Instruction.erase, List.append_nil,
        ← f.map_authoredKey?_elements] at herase
      exact congrArg Except.ok herase

/-- Two streams of a fragment under generated identity have the same transcript, if the keys that
were drawn have the form of generated ones. -/
theorem transcript_eq_of_generated {c c' : PatchCompiler} {source source' : String} {f : Fragment}
    {stream stream' : List Instruction}
    (hdrop : c.config.dropEmptyAttributes = c'.config.dropEmptyAttributes)
    (hparse : c.parser source = .ok f) (hparse' : c'.parser source' = .ok f)
    (hcompile : (c.compileStack source).1 = .ok stream)
    (hcompile' : (c'.compileStack source').1 = .ok stream')
    (hidentity : c.config.identity = .generated) (hidentity' : c'.config.identity = .generated)
    (hsupply : ∀ n, Key.isHex32 (c.supply n) = true)
    (hsupply' : ∀ n, Key.isHex32 (c'.supply n) = true) :
    Transcript.ofInstructions stream = Transcript.ofInstructions stream' := by
  obtain ⟨drafts, hdraft, rfl⟩ := exists_draft_of_compileStack hparse hcompile
  obtain ⟨drafts', hdraft', rfl⟩ := exists_draft_of_compileStack hparse' hcompile'
  have hdrafts : f.draft c.config = f.draft c'.config :=
    Draft.ofNodes_congr (hidentity.trans hidentity'.symm) hdrop _ _ _ _
  rw [hdraft, hdraft', Except.ok.injEq] at hdrafts
  rw [hdrafts]
  exact Transcript.lines_assign hsupply hsupply' drafts' 0 c.drawn c'.drawn

/-- Let a fragment be compiled twice, with the same attributes left out.  Then either both fail,
with the same error, or both succeed, with streams that differ at most in the keys of the elements
without an id.  If both identities are generated, with keys in the form of generated ones, the
transcripts of the streams are the same. -/
theorem identity_decides_missing_keys {c c' : PatchCompiler} {source source' : String}
    {f : Fragment} (hdrop : c.config.dropEmptyAttributes = c'.config.dropEmptyAttributes)
    (hparse : c.parser source = .ok f) (hparse' : c'.parser source' = .ok f) :
    (∃ e, (c.compileStack source).1 = .error e ∧ (c'.compileStack source').1 = .error e) ∨
      ∃ stream stream', (c.compileStack source).1 = .ok stream ∧
        (c'.compileStack source').1 = .ok stream' ∧ f.eraseKeys stream = f.eraseKeys stream' ∧
        (c.config.identity = .generated → c'.config.identity = .generated →
          (∀ n, Key.isHex32 (c.supply n) = true) → (∀ n, Key.isHex32 (c'.supply n) = true) →
          Transcript.ofInstructions stream = Transcript.ofInstructions stream') := by
  let bare : PatchConfig :=
    { identity := .generated, dropEmptyAttributes := c.config.dropEmptyAttributes }
  have hbare : bare.identity = .generated := rfl
  have hdropped : c.config.dropEmptyAttributes = bare.dropEmptyAttributes := rfl
  have herase : (c.compileStack source).1.map f.eraseKeys =
      (c'.compileStack source').1.map f.eraseKeys := by
    rw [map_eraseKeys_compileStack hbare hdropped hparse,
      map_eraseKeys_compileStack hbare (hdrop.symm.trans hdropped) hparse']
  cases hcompile : (c.compileStack source).1 with
  | error e =>
    cases hcompile' : (c'.compileStack source').1 with
    | error e' =>
      rw [hcompile, hcompile'] at herase
      cases herase
      exact Or.inl ⟨e, rfl, rfl⟩
    | ok stream' =>
      rw [hcompile, hcompile'] at herase
      cases herase
  | ok stream =>
    cases hcompile' : (c'.compileStack source').1 with
    | error e' =>
      rw [hcompile, hcompile'] at herase
      cases herase
    | ok stream' =>
      rw [hcompile, hcompile'] at herase
      exact Or.inr ⟨stream, stream', rfl, rfl, Except.ok.inj herase,
        transcript_eq_of_generated hdrop hparse hparse' hcompile hcompile'⟩

/-- A text, an element with an id around one without an id and one whose id looks generated, and an
element with an empty id: compiled with generated keys, with others of the same form, and with keys
of places. -/
theorem identity_decides_missing_keys_of_items :
    let hex := "0123456789ABCDEF0123456789abcdef"
    let f := Fragment.ofNodes [.text "t", .element "div" [⟨"id", "a@b"⟩, ⟨"hidden", ""⟩]
      [.element "p" [] [.text "x"], .element "b" [⟨"id", hex⟩] []], .element "i" [⟨"id", ""⟩] []]
    let c := PatchCompiler.new (fun _ => .ok f) { dropEmptyAttributes := false }
    let c' : PatchCompiler := { c with supply := fun _ => hex, drawn := 7 }
    let c'' := PatchCompiler.new (fun _ => .ok f)
      { identity := .structural, dropEmptyAttributes := false }
    let stream := fun key key' : String => [
      Instruction.openElement "div" "a@@b" [⟨"id", "a@b"⟩, ⟨"hidden", ""⟩],
      .openElement "p" key [], .text "x", .closeElement "p", .openElement "b" hex [⟨"id", hex⟩],
      .closeElement "b", .closeElement "div", .openElement "i" key' [⟨"id", ""⟩],
      .closeElement "i"]
    let first := stream (Key.generated 0) (Key.generated 1)
    (c.compileStack "").1 = .ok first ∧ (c'.compileStack "").1 = .ok (stream hex hex) ∧
      (c''.compileStack "").1 = .ok (stream "a@@b@0" "@1") ∧
      f.eraseKeys first = f.eraseKeys (stream hex hex) ∧
      f.eraseKeys first = f.eraseKeys (stream "a@@b@0" "@1") ∧
      Transcript.ofInstructions first = Transcript.ofInstructions (stream hex hex) := by
  intro hex f c c' c'' stream first
  have hparse : c.parser "" = .ok f := rfl
  have hparse' : c'.parser "" = .ok f := rfl
  have hparse'' : c''.parser "" = .ok f := rfl
  have hdrop' : c.config.dropEmptyAttributes = c'.config.dropEmptyAttributes := rfl
  have hdrop'' : c.config.dropEmptyAttributes = c''.config.dropEmptyAttributes := rfl
  have hcompile : (c.compileStack "").1 = .ok first := by decide +kernel
  have hcompile' : (c'.compileStack "").1 = .ok (stream hex hex) := by decide +kernel
  have hcompile'' : (c''.compileStack "").1 = .ok (stream "a@@b@0" "@1") := by decide +kernel
  have hsupply' : ∀ n, Key.isHex32 (c'.supply n) = true := fun _ => by
    change Key.isHex32 hex = true
    decide
  have hsucceeds : ∀ c₂ : PatchCompiler,
      ¬ ∃ e, (c.compileStack "").1 = .error e ∧ (c₂.compileStack "").1 = .error e := by
    rintro c₂ ⟨e, he, -⟩
    rw [hcompile] at he
    cases he
  obtain ⟨s, s', hs, hs', herase', htranscript⟩ :=
    (identity_decides_missing_keys hdrop' hparse hparse').resolve_left (hsucceeds c')
  obtain ⟨t, t', ht, ht', herase'', -⟩ :=
    (identity_decides_missing_keys hdrop'' hparse hparse'').resolve_left (hsucceeds c'')
  obtain rfl := Except.ok.inj (hcompile.symm.trans hs)
  obtain rfl := Except.ok.inj (hcompile.symm.trans ht)
  obtain rfl := Except.ok.inj (hcompile'.symm.trans hs')
  obtain rfl := Except.ok.inj (hcompile''.symm.trans ht')
  exact ⟨hcompile, hcompile', hcompile'', herase', herase'',
    htranscript rfl rfl Key.isHex32_generated hsupply'⟩

end PatchCompiler
end LiveMarkup
