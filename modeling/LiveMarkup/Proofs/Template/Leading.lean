import LiveMarkup.Proofs.Template.Writing
import LiveMarkup.Proofs.Template.Grammar

/-!
# Plain text before a tag

Plain text in front of a tag becomes a literal of its own, and the rest is read as before, its
errors further on.  For this the text must hold nothing that opens a mark, and it must not end in a
number sign or an opening brace.  The number sign would open a placeholder with the brace of the
tag.  The brace is no such matter: two braces that start no tag are skipped together, so with the
brace before it the tag is missed, all the way to its closing braces.

Main definitions:

- `Mark.StartsWithTag`: a text that starts with a tag.

Main results:

- `Tag.ofInner?_cases`: from what tags are read.
- `Mark.ofChars_brace_append`: a tag behind a brace is plain text.
- `Segment.ofText_append_of_tag`, `Segment.ofText_append_of_brace`: plain text before a tag is a
  literal of its own, and it is none if it ends in a brace.
- `Segment.ofText_append_tag`: both in one.
-/

namespace LiveMarkup

namespace Text

theorem mem_trimLeft {c : Char} (hc : isBlank c = false) {cs : List Char} (h : c ∈ cs) :
    c ∈ trimLeft cs := by
  rw [← List.takeWhile_append_dropWhile (p := isBlank) (l := cs), List.mem_append] at h
  refine h.resolve_left fun hmem => ?_
  rw [List.mem_takeWhile_imp hmem] at hc
  cases hc

/-- Trimming keeps what is no blank. -/
theorem mem_trim {c : Char} (hc : isBlank c = false) {cs : List Char} (h : c ∈ cs) :
    c ∈ trim cs := by
  rw [trim, List.mem_reverse]
  exact mem_trimLeft hc (List.mem_reverse.mpr (mem_trimLeft hc h))

end Text

namespace Tag

/-- No name holds an opening brace. -/
theorem brace_notMem_of_isName {name : List Char} (h : isName name = true) : '\x7b' ∉ name := by
  rw [isName, Bool.and_eq_true, List.all_eq_true] at h
  intro hmem
  exact absurd (h.2 _ hmem) (by decide)

/-- No path holds an opening brace. -/
theorem brace_notMem_of_path? {cs : List Char} {path : List String}
    (h : Expr.path? cs = some path) : '\x7b' ∉ cs := by
  intro hmem
  exact absurd ((Expr.path?_iff_dotted.mp h).forall_isPathChar _ hmem) (by decide)

/-- A tag is read from a slash and a name, or from a name, a blank and a path. -/
theorem ofInner?_cases {inner : List Char} {t : Tag} (h : ofInner? inner = some t) :
    (∃ rest, Text.trim inner = '/' :: rest ∧ isName (Text.trim rest) = true ∧
        t = .closing (Text.trim rest)) ∨
      ∃ name blank arg path, Text.trim inner = name ++ blank :: arg ∧
        Text.isBlank blank = true ∧ isName name = true ∧
        Expr.path? (Text.trim arg) = some path ∧ t = .opening name path := by
  unfold ofInner? at h
  split at h
  · next rest htrim =>
    obtain ⟨hname, ht⟩ := Option.ite_none_right_eq_some.mp h
    cases ht
    exact .inl ⟨rest, htrim, hname, rfl⟩
  · dsimp only at h
    split at h
    · cases h
    · next blank arg hdrop =>
      split at h
      · next path hpath =>
        obtain ⟨hname, ht⟩ := Option.ite_none_right_eq_some.mp h
        cases ht
        have hstop := List.head?_dropWhile_not (fun c => !Text.isBlank c) (Text.trim inner)
        rw [hdrop] at hstop
        refine .inr ⟨_, blank, arg, path, ?_, by simpa using hstop, hname, hpath, rfl⟩
        rw [← hdrop, List.takeWhile_append_dropWhile]
      · cases h

/-- No tag has an opening brace inside. -/
theorem brace_notMem_of_ofInner? {inner : List Char} {t : Tag} (h : ofInner? inner = some t) :
    '\x7b' ∉ inner := by
  intro hmem
  have htrim := Text.mem_trim (by decide) hmem
  rcases ofInner?_cases h with
    ⟨rest, hrest, hname, -⟩ | ⟨name, blank, arg, path, hparts, hblank, hname, hpath, -⟩
  · rw [hrest] at htrim
    have hbrace := Text.mem_trim (by decide) (List.mem_of_ne_of_mem (by decide) htrim)
    exact brace_notMem_of_isName hname hbrace
  · rw [hparts, List.mem_append, List.mem_cons] at htrim
    rcases htrim with hbrace | rfl | hbrace
    · exact brace_notMem_of_isName hname hbrace
    · exact absurd hblank (by decide)
    · exact brace_notMem_of_path? hpath (Text.mem_trim (by decide) hbrace)

/-- A text that starts with an opening brace is not the inside of a tag. -/
theorem ofInner?_brace (inner : List Char) : ofInner? ('\x7b' :: inner) = none :=
  Option.eq_none_iff_forall_ne_some.mpr fun _ h => brace_notMem_of_ofInner? h List.mem_cons_self

end Tag

namespace Mark

/-- A text that starts with a tag. -/
def StartsWithTag (cs : List Char) : Prop :=
  ∃ rest, cs = '\x7b' :: '\x7b' :: rest ∧ (tag? rest).isSome

/-- Before anything but a closing brace the search for a pair goes on. -/
theorem closePair?_cons {c : Char} (hc : c ≠ '\x7d') (cs : List Char) :
    closePair? (c :: cs) = (closePair? cs).map fun r => (c :: r.1, r.2) := by
  cases cs with
  | nil => rfl
  | cons d cs => rw [closePair?, if_neg fun h => hc h.1]

/-- A tag is read from what stands before the first pair of closing braces. -/
theorem ofInner?_of_tag? {cs inner after : List Char} {t : Tag}
    (h : tag? cs = some (inner, t, after)) :
    closePair? cs = some (inner, after) ∧ Tag.ofInner? inner = some t := by
  unfold tag? at h
  split at h
  · cases h
  · next inner' after' hclose =>
    obtain ⟨t', ht', heq⟩ := Option.map_eq_some_iff.mp h
    cases heq
    exact ⟨hclose, ht'⟩

/-- With one more brace before it a tag is no tag. -/
theorem tag?_brace {cs inner after : List Char} {t : Tag}
    (h : tag? cs = some (inner, t, after)) : tag? ('\x7b' :: cs) = none := by
  rw [tag?, closePair?_cons (by decide), (ofInner?_of_tag? h).1, Option.map_some]
  dsimp only
  rw [Tag.ofInner?_brace, Option.map_none]

/-- Where no opening brace follows, no mark opens. -/
theorem isChain_cons_of_notMem {c : Char} {cs : List Char} (h : '\x7b' ∉ cs) :
    (c :: cs).IsChain fun c d => ¬ Opens c d := by
  induction cs generalizing c with
  | nil => exact .singleton c
  | cons d cs ih =>
    rw [List.mem_cons, not_or] at h
    exact .cons_cons (fun hopens => h.1 hopens.2.symm) (ih h.2)

/-- A tag behind a brace is plain text up to its closing braces. -/
theorem ofChars_brace_append {front cs inner after : List Char} {t : Tag}
    (hfront : (front ++ ['\x7b']).IsChain fun c d => ¬ Opens c d)
    (h : tag? cs = some (inner, t, after)) :
    ofChars (front ++ '\x7b' :: '\x7b' :: '\x7b' :: cs) =
      (front ++ '\x7b' :: '\x7b' :: '\x7b' :: inner).foldr consPlain
        (ofChars ('\x7d' :: '\x7d' :: after)) := by
  have hbrace := Tag.brace_notMem_of_ofInner? (ofInner?_of_tag? h).2
  have hinner : ('\x7b' :: inner ++ ['\x7d']).IsChain fun c d => ¬ Opens c d := by
    have hinside : '\x7b' ∉ inner ++ ['\x7d'] := by
      simp [hbrace]
    exact isChain_cons_of_notMem hinside
  rw [ofChars_append_foldr hfront, ofChars_of_tag?_eq_none (tag?_brace h), eq_of_tag? h,
    ← List.cons_append, ofChars_append_foldr hinner, List.foldr_append]
  rfl

/-- Characters that are no mark stand at the start of one plain mark. -/
theorem exists_foldr_consPlain {run : List Char} (hne : run ≠ []) (marks : List Mark) :
    ∃ more rest, run.foldr consPlain marks = .plain (run ++ more) :: rest := by
  induction run with
  | nil => exact absurd rfl hne
  | cons c run ih =>
    rw [List.foldr_cons]
    cases run with
    | nil =>
      rw [List.foldr_nil]
      unfold consPlain
      split
      · next run rest => exact ⟨run, rest, rfl⟩
      · exact ⟨[], marks, rfl⟩
    | cons d run =>
      obtain ⟨more, rest, hrun⟩ := ih (List.cons_ne_nil d run)
      exact ⟨more, rest, by rw [hrun]; rfl⟩

end Mark

namespace Segment

/-- Plain text before a tag is a literal of its own, unless its last character is a number sign or
an opening brace.  The rest is read as before, its errors further on. -/
theorem ofText_append_of_tag {p t : String} (hp : (Mark.plain p.toList).Written)
    (hsign : p.toList.getLast? ≠ some '#') (hbrace : p.toList.getLast? ≠ some '\x7b')
    (ht : Mark.StartsWithTag t.toList) :
    ofText (p ++ t) =
      match ofText t with
      | .ok segments => .ok (.piece (.literal p) :: segments)
      | .error e => .error (e.later p.utf8ByteSize) := by
  obtain ⟨rest, hrest, htag⟩ := ht
  obtain ⟨⟨inner, tag, after⟩, htag⟩ := Option.isSome_iff_exists.mp htag
  have hchars : t.toList = (Mark.tag inner tag).chars ++ after := by
    rw [hrest, Mark.eq_of_tag? htag]
    simp [Mark.chars]
  have hopens : (p.toList ++ t.toList.head?.toList).IsChain fun c d => ¬ Mark.Opens c d := by
    rw [hchars]
    exact Mark.isChain_append_head? (m := .tag inner tag) hp ⟨hsign, hbrace⟩ after
  have hmarks : Mark.ofChars t.toList = .tag inner tag :: Mark.ofChars after := by
    rw [hrest, Mark.ofChars_of_tag? htag]
  have hsplit : Mark.ofChars (p.toList ++ t.toList) = .plain p.toList :: Mark.ofChars t.toList := by
    refine Mark.ofChars_append hp.1 hopens ?_
    rw [hmarks]
    rintro _ ⟨⟩
    rfl
  rw [ofText, String.toList_append, hsplit, outside, byteLength_toList, Nat.add_comm, outside_add,
    String.ofList_toList, ofText]
  cases outside 0 (Mark.ofChars t.toList) <;> rfl

/-- Plain text that ends in an opening brace hides the tag behind it: it is no literal of its own,
whatever follows the tag. -/
theorem ofText_append_of_brace {p t : String} (hp : (Mark.plain p.toList).Written)
    (hbrace : p.toList.getLast? = some '\x7b') (ht : Mark.StartsWithTag t.toList)
    (segments : List Segment) : ofText (p ++ t) ≠ .ok (.piece (.literal p) :: segments) := by
  intro hread
  obtain ⟨rest, hrest, htag⟩ := ht
  obtain ⟨⟨inner, tag, after⟩, htag⟩ := Option.isSome_iff_exists.mp htag
  obtain ⟨front, hfront⟩ := List.getLast?_eq_some_iff.mp hbrace
  have hopens := Mark.isChain_of_not_infix hp.2.1 hp.2.2
  rw [hfront] at hopens
  have hmarks := Mark.ofChars_brace_append hopens htag
  have hne : front ++ '\x7b' :: '\x7b' :: '\x7b' :: inner ≠ [] := by
    simp
  obtain ⟨more, marks, hplain⟩ :=
    Mark.exists_foldr_consPlain hne (Mark.ofChars ('\x7d' :: '\x7d' :: after))
  have hreads := reads_of_outside hread
  rw [String.toList_append, hfront, hrest, List.append_assoc, List.singleton_append, hmarks, hplain]
    at hreads
  generalize hlonger : front ++ '\x7b' :: '\x7b' :: '\x7b' :: inner ++ more = longer at hreads
  generalize hliteral : Piece.literal p = piece at hreads
  cases hreads with
  | piece hpiece _ =>
    cases hpiece
    cases hliteral
    rw [String.toList_ofList] at hfront
    have hlength := congrArg List.length (hlonger.trans hfront)
    simp at hlength

/-- Plain text that does not end in an opening brace is a literal before the tag, and the rest is
read as before, its errors further on.  Where the rest is read without an error, the text becomes a
literal of its own only then. -/
theorem ofText_append_tag {p t : String} (hp : (Mark.plain p.toList).Written)
    (hsign : p.toList.getLast? ≠ some '#') (ht : Mark.StartsWithTag t.toList) :
    (p.toList.getLast? ≠ some '\x7b' →
      ofText (p ++ t) =
        match ofText t with
        | .ok segments => .ok (.piece (.literal p) :: segments)
        | .error e => .error (e.later p.utf8ByteSize)) ∧
      ∀ segments, ofText t = .ok segments →
        (ofText (p ++ t) = .ok (.piece (.literal p) :: segments) ↔
          p.toList.getLast? ≠ some '\x7b') := by
  refine ⟨fun hbrace => ofText_append_of_tag hp hsign hbrace ht, fun segments h => ?_⟩
  refine ⟨fun hread hbrace => ofText_append_of_brace hp hbrace ht segments hread, fun hbrace => ?_⟩
  rw [ofText_append_of_tag hp hsign hbrace ht, h]

/-- A brace before a block hides the block, and a letter does not. -/
theorem ofText_append_tag_of_block :
    let block := "\x7b\x7beach x\x7d\x7da\x7b\x7b/each\x7d\x7d"
    let segments := [Segment.each ["x"] [.literal "a"]]
    ofText block = .ok segments ∧
      ofText ("p" ++ block) = .ok (.piece (.literal "p") :: segments) ∧
      ofText ("\x7b" ++ block) ≠ .ok (.piece (.literal "\x7b") :: segments) ∧
      ofText ("\x7b" ++ block) = .error (.malformedBlock (.strayClose "each") 12) := by
  intro block segments
  have hblock : ofText block = .ok segments := by cbv
  have htag : Mark.StartsWithTag block.toList :=
    ⟨"each x\x7d\x7da\x7b\x7b/each\x7d\x7d".toList, by decide, by decide⟩
  have hwritten : ∀ c, (Mark.plain [c]).Written := fun c => by
    simp [Mark.Written, List.infix_cons_iff]
  obtain ⟨hletter, -⟩ := ofText_append_tag (p := "p") (hwritten 'p') (by decide) htag
  obtain ⟨-, hbrace⟩ := ofText_append_tag (p := "\x7b") (hwritten '\x7b') (by decide) htag
  have hhidden := (hbrace segments hblock).not.mpr (by decide)
  refine ⟨hblock, ?_, hhidden, by cbv⟩
  rw [hletter (by decide), hblock]

end Segment
end LiveMarkup
