import LiveMarkup.Patch.Key
import Mathlib.Data.List.Basic

/-!
# Keys tell where they come from

In the key of an authored id at signs come in pairs, so their number is even; in the key of a place
there is one more, and it is the last.  What follows it are digits and points, from which the
positions can be read back.

Main definitions:

- `Key.Origin`, `Key.Origin.key`: where a key comes from, and its key.

Main results:

- `Key.authored_injective`: different ids have different keys.
- `Key.authored_ne_structural`: no key is that of an id and that of a place.
- `Key.structural_inj`: the key of a place determines its anchor and its positions.
- `Key.Origin.key_injective`: all of this in one.
- `Key.isHex32_generated`: generated keys have the form that is masked in transcripts.
- `Key.generated_ne_authored`: short ids have other keys than those that are generated.
-/

namespace LiveMarkup
namespace Key

/-! ## Authored ids -/

theorem toList_authored (id : String) : (authored id).toList = id.toList.flatMap authoredChar := by
  rw [authored, String.toList_ofList]

/-- Doubling the at signs loses nothing. -/
theorem flatMap_authoredChar_inj :
    ∀ {cs ds : List Char}, cs.flatMap authoredChar = ds.flatMap authoredChar → cs = ds
  | [], [], _ => rfl
  | [], d :: ds, h => by
    rw [List.flatMap_cons, authoredChar] at h
    split at h <;> simp at h
  | c :: cs, [], h => by
    rw [List.flatMap_cons, authoredChar] at h
    split at h <;> simp at h
  | c :: cs, d :: ds, h => by
    rw [List.flatMap_cons, List.flatMap_cons] at h
    by_cases hc : c = '@' <;> by_cases hd : d = '@'
    · simp only [authoredChar, if_pos hc, if_pos hd] at h
      rw [hc, hd, flatMap_authoredChar_inj (List.append_cancel_left h)]
    · simp only [authoredChar, if_pos hc, if_neg hd] at h
      exact absurd (List.cons.inj h).1.symm hd
    · simp only [authoredChar, if_neg hc, if_pos hd] at h
      exact absurd (List.cons.inj h).1 hc
    · simp only [authoredChar, if_neg hc, if_neg hd] at h
      obtain ⟨hcd, hrest⟩ := List.cons.inj h
      rw [hcd, flatMap_authoredChar_inj hrest]

/-- Different ids have different keys. -/
theorem authored_injective : Function.Injective authored := by
  intro a b h
  have hchars := congrArg String.toList h
  rw [toList_authored, toList_authored] at hchars
  exact String.toList_inj.mp (flatMap_authoredChar_inj hchars)

/-- At signs are doubled. -/
theorem count_flatMap_authoredChar (cs : List Char) :
    (cs.flatMap authoredChar).count '@' = 2 * cs.count '@' := by
  induction cs with
  | nil => rfl
  | cons c cs ih =>
    rw [List.flatMap_cons, List.count_append, ih, List.count_cons]
    by_cases hc : c = '@'
    · simp [authoredChar, hc]
      omega
    · simp [authoredChar, hc]

/-- In the key of an id at signs come in pairs. -/
theorem count_authored (id : String) :
    (authored id).toList.count '@' = 2 * id.toList.count '@' := by
  rw [toList_authored, count_flatMap_authoredChar]

/-! ## Positions -/

/-- What stands between points are digits. -/
theorem not_mem_toDigits {c : Char} (hc : c.isDigit = false) (n : Nat) : c ∉ Nat.toDigits 10 n := by
  intro hmem
  rw [Nat.isDigit_of_mem_toDigits (by omega) (by omega) hmem] at hc
  cases hc

/-- Different numbers have different digits. -/
theorem toDigits_injective : Function.Injective (Nat.toDigits 10) := by
  intro m n h
  have hread := congrArg (fun cs => Nat.ofDigitChars 10 cs 0) h
  simpa only [Nat.ofDigitChars_ten_toDigits] using hread

/-- There is no at sign in a dotted path. -/
theorem not_mem_dotted (path : List Nat) : '@' ∉ dotted path := by
  unfold dotted
  induction path with
  | nil => simp
  | cons n rest ih =>
    cases rest with
    | nil => simpa using not_mem_toDigits rfl n
    | cons m rest =>
      rw [List.map_cons, List.map_cons, List.intercalate_cons_cons, List.mem_append,
        List.mem_append]
      rintro ((hmem | hmem) | hmem)
      · exact not_mem_toDigits rfl n hmem
      · simp at hmem
      · exact ih hmem

/-- Dots between positions can be taken away again. -/
theorem splitOn_dotted {path : List Nat} (hpath : path ≠ []) :
    (dotted path).splitOn '.' = path.map (Nat.toDigits 10) := by
  refine List.splitOn_intercalate '.' ?_ (by simpa using hpath)
  intro digits hdigits
  obtain ⟨n, -, rfl⟩ := List.mem_map.mp hdigits
  exact not_mem_toDigits rfl n

/-- A path that is not empty is written with at least one digit. -/
theorem dotted_ne_nil {path : List Nat} (hpath : path ≠ []) : dotted path ≠ [] := by
  intro hnil
  have hsplit := splitOn_dotted hpath
  rw [hnil, List.splitOn_nil] at hsplit
  have hmem : [] ∈ path.map (Nat.toDigits 10) := by simp [← hsplit]
  obtain ⟨n, -, hn⟩ := List.mem_map.mp hmem
  exact Nat.toDigits_ne_nil hn

/-- Different paths are written in different ways. -/
theorem dotted_injective : Function.Injective dotted := by
  intro p q h
  by_cases hp : p = []
  · by_cases hq : q = []
    · rw [hp, hq]
    · exact absurd (h.symm.trans (congrArg dotted hp)) (dotted_ne_nil hq)
  · by_cases hq : q = []
    · exact absurd (h.trans (congrArg dotted hq)) (dotted_ne_nil hp)
    · have hsplit := congrArg (List.splitOn '.') h
      rw [splitOn_dotted hp, splitOn_dotted hq] at hsplit
      exact List.map_injective_iff.mpr toDigits_injective hsplit

/-! ## Places -/

theorem toList_structural (anchor : String) (path : List Nat) :
    (structural anchor path).toList = anchor.toList ++ '@' :: dotted path := by
  rw [structural, String.toList_ofList]

/-- What stands before and after the last at sign is determined. -/
theorem append_at_inj {as bs ps qs : List Char} (hp : '@' ∉ ps) (hq : '@' ∉ qs)
    (h : as ++ '@' :: ps = bs ++ '@' :: qs) : as = bs ∧ ps = qs := by
  rcases List.append_eq_append_iff.mp h with ⟨between, hbs, hps⟩ | ⟨between, has, hqs⟩
  · cases between with
    | nil => simp_all
    | cons c rest =>
      -- The second at sign would stand behind the first.
      obtain ⟨-, hrest⟩ := List.cons.inj hps
      exact absurd (by simp [hrest]) hp
  · cases between with
    | nil => simp_all
    | cons c rest =>
      obtain ⟨-, hrest⟩ := List.cons.inj hqs
      exact absurd (by simp [hrest]) hq

/-- The key of a place determines its anchor and its positions. -/
theorem structural_inj {a b : String} {p q : List Nat} (h : structural a p = structural b q) :
    a = b ∧ p = q := by
  have hchars := congrArg String.toList h
  rw [toList_structural, toList_structural] at hchars
  obtain ⟨hanchor, hpath⟩ := append_at_inj (not_mem_dotted p) (not_mem_dotted q) hchars
  exact ⟨String.toList_inj.mp hanchor, dotted_injective hpath⟩

/-- The key of a place has one at sign more than its anchor. -/
theorem count_structural (anchor : String) (path : List Nat) :
    (structural anchor path).toList.count '@' = anchor.toList.count '@' + 1 := by
  rw [toList_structural, List.count_append, List.count_cons_self,
    List.count_eq_zero_of_not_mem (not_mem_dotted path)]

/-- No key is that of an id and that of a place: the number of at signs is even in one and odd in
the other. -/
theorem authored_ne_structural (a b : String) (path : List Nat) :
    authored a ≠ structural (authored b) path := by
  intro h
  have hcount := congrArg (fun key : String => key.toList.count '@') h
  simp only [count_structural, count_authored] at hcount
  omega

/-! ## Origins -/

/-- Where a key comes from: an authored id, or a path of positions counted from the element with the
id or, if the id is empty, from the top. -/
structure Origin where
  id : String
  path : Option (List Nat)
  deriving DecidableEq

/-- The key of an origin. -/
def Origin.key (o : Origin) : String :=
  match o.path with
  | none => authored o.id
  | some path => structural (authored o.id) path

/-- A key tells where it comes from. -/
theorem Origin.key_injective : Function.Injective Origin.key := by
  rintro ⟨a, p⟩ ⟨b, q⟩ h
  cases p with
  | none =>
    cases q with
    | none => exact congrArg (Origin.mk · none) (authored_injective h)
    | some q => exact absurd h (authored_ne_structural a b q)
  | some p =>
    cases q with
    | none => exact absurd h.symm (authored_ne_structural b a p)
    | some q =>
      obtain ⟨hanchor, rfl⟩ := structural_inj h
      exact congrArg (Origin.mk · (some p)) (authored_injective hanchor)

/-! ## Generated keys -/

theorem length_authoredChar_le (c : Char) : (authoredChar c).length ≤ 2 := by
  unfold authoredChar
  split <;> simp

/-- The key of an id is at most twice as long. -/
theorem length_authored_le (id : String) : (authored id).toList.length ≤ 2 * id.toList.length := by
  rw [toList_authored]
  induction id.toList with
  | nil => exact Nat.le_refl _
  | cons c rest ih =>
    have hc := length_authoredChar_le c
    rw [List.flatMap_cons, List.length_append, List.length_cons]
    omega

/-- Numbers are written with hexadecimal digits. -/
theorem isHexDigit_of_mem_hex {n : Nat} {c : Char} (hc : c ∈ Text.hex n) : isHexDigit c = true := by
  have hdigit : ∀ d < 16, isHexDigit d.digitChar = true := by decide
  unfold Text.hex at hc
  induction n using Nat.strongRecOn generalizing c with
  | ind n ih =>
    rw [Nat.toDigits_eq_if (by omega)] at hc
    by_cases hn : n < 16
    · rw [if_pos hn, List.mem_singleton] at hc
      exact hc ▸ hdigit n hn
    · rw [if_neg hn, List.mem_append, List.mem_singleton] at hc
      rcases hc with hc | rfl
      · exact ih (n / 16) (by omega) hc
      · exact hdigit (n % 16) (Nat.mod_lt n (by omega))

/-- A padded number consists of as many hexadecimal digits as it was padded to, if it has no more of
its own. -/
theorem hexPadded_spec {width n : Nat} (hwidth : 0 < width) (hn : n < Nat.pow 16 width) :
    (Text.hexPadded width n).length = width ∧
      ∀ c ∈ Text.hexPadded width n, isHexDigit c = true := by
  have hle : (Text.hex n).length ≤ width := (Nat.length_toDigits_le_iff (by omega) hwidth).mpr hn
  constructor
  · rw [Text.hexPadded, List.length_append, List.length_replicate]
    omega
  · intro c hc
    rcases List.mem_append.mp hc with hc | hc
    · rw [List.eq_of_mem_replicate hc]
      rfl
    · exact isHexDigit_of_mem_hex hc

/-- Generated keys have the form of generated keys. -/
theorem isHex32_generated (n : Nat) : isHex32 (generated n) = true := by
  have hparts : ∀ a b c d : Nat, a < Nat.pow 16 12 → b < Nat.pow 16 3 → c < 16 →
      d < Nat.pow 16 15 → isHex32 (String.ofList (Text.hexPadded 12 a ++ '4' ::
        Text.hexPadded 3 b ++ Text.hex c ++ Text.hexPadded 15 d)) = true := by
    intro a b c d ha hb hc hd
    obtain ⟨hlenA, hallA⟩ := hexPadded_spec (by decide) ha
    obtain ⟨hlenB, hallB⟩ := hexPadded_spec (by decide) hb
    obtain ⟨hlenD, hallD⟩ := hexPadded_spec (by decide) hd
    have hlenC : (Text.hex c).length = 1 := by rw [Text.hex, Nat.toDigits_of_lt_base hc]; rfl
    have hfour : isHexDigit '4' = true := rfl
    rw [isHex32, Bool.and_eq_true, beq_iff_eq, ← String.length_toList, String.toList_ofList,
      List.all_eq_true]
    constructor
    · simp only [List.length_append, List.length_cons, hlenA, hlenB, hlenC, hlenD]
    · intro digit hdigit
      simp only [List.mem_append, List.mem_cons] at hdigit
      rcases hdigit with ((hdigit | rfl | hdigit) | hdigit) | hdigit
      · exact hallA digit hdigit
      · exact hfour
      · exact hallB digit hdigit
      · exact isHexDigit_of_mem_hex hdigit
      · exact hallD digit hdigit
  have hspread : spread n < Nat.pow 2 122 := Nat.mod_lt _ (by decide)
  refine hparts _ _ _ _ ?_ ?_ ?_ ?_
  · exact Nat.div_lt_of_lt_mul hspread
  · exact Nat.mod_lt _ (by decide)
  · have hmod := Nat.mod_lt (spread n / Nat.pow 2 60) (show 4 > 0 by decide)
    omega
  · exact Nat.mod_lt _ (by decide)

/-- All generated keys have the same length. -/
theorem length_generated (n : Nat) : (generated n).toList.length = 32 := by
  have hlength := (Bool.and_eq_true _ _).mp (isHex32_generated n) |>.1
  rwa [beq_iff_eq, ← String.length_toList] at hlength

/-- No generated key is that of a short id. -/
theorem generated_ne_authored (n : Nat) {id : String} (hid : id.toList.length < 16) :
    generated n ≠ authored id := by
  intro heq
  have hauthored := length_authored_le id
  rw [← heq] at hauthored
  have hgenerated := length_generated n
  omega

end Key
end LiveMarkup
