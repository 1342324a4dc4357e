import Mathlib.Data.List.Chain
import Rewind.Proofs.Json.Recognition
import Rewind.Proofs.Json.Rendering
import Rewind.Proofs.Number.Literal

/-! # Parsing undoes rendering

Every rendering is derived by the grammar, at no more levels than the value has, and denotes the value
but for the order of entries.  What the spellings of a string come to is found from its end: joining the
surrogates of what follows a character neither takes it away nor needs it, since no character of the
string pairs up with the next. -/

namespace Rewind.Json

open Rewind.Parser Syntax Rendering

/-! ## Integers -/

/-- The decimal text of an integer is a numeral for it. -/
theorem numeral_decimal (i : Int) : ∃ l, Numeral (decimal i) l ∧ l.value = i := by
  refine ⟨.canonical i, ?_, Literal.value_canonical i⟩
  have signs : (Literal.canonical i).sign ∈ [text "", text "-", text "+"] := by
    by_cases negative : i < 0 <;> simp [Literal.canonical, negative]
  rw [← Literal.canonical_spelled]
  exact .intro signs (digits_ne_nil i.natAbs) (Literal.isDigit_canonical i)

theorem numberText_decimal (d : Dialect) (i : Int) : NumberText d (decimal i) (.int i) := by
  obtain ⟨l, numeral, value⟩ := numeral_decimal i
  have assembles : Number.assemble d.exactFractions l none none = .ok (.int i) := by
    rw [← value]
    rfl
  have derived := NumberText.intro numeral .absent .absent assembles
  rwa [List.append_nil, List.append_nil] at derived

/-! ## Strings -/

/-- A digit of either case has the value of the number it was written for. -/
theorem hexValue_lowerHex {k : Nat} (bound : k < 16) {digit : Code}
    (cased : digit = lowerHex k ∨ digit = upperHex (lowerHex k)) :
    CharClass.isHexDigit digit = true ∧ Token.hexValue digit = k := by
  have every : ∀ k < 16,
      (CharClass.isHexDigit (lowerHex k) = true ∧ Token.hexValue (lowerHex k) = k) ∧
        CharClass.isHexDigit (upperHex (lowerHex k)) = true ∧
          Token.hexValue (upperHex (lowerHex k)) = k := by decide
  obtain rfl | rfl := cased
  · exact (every k bound).1
  · exact (every k bound).2

theorem item_numbered {c : Nat} (small : c < 0x10000) {ds : Text} (hex : Hex c ds) :
    Item (0x5C :: 0x75 :: ds) c := by
  have spelled : hexPadded 4 c = [lowerHex (c / 16 / 16 / 16 % 16), lowerHex (c / 16 / 16 % 16),
      lowerHex (c / 16 % 16), lowerHex (c % 16)] := rfl
  rw [Hex, spelled] at hex
  obtain _ | ⟨first, hex⟩ := hex
  obtain _ | ⟨second, hex⟩ := hex
  obtain _ | ⟨third, hex⟩ := hex
  obtain _ | ⟨fourth, hex⟩ := hex
  cases hex
  rename_i a b e f
  obtain ⟨isHexA, valueA⟩ := hexValue_lowerHex (Nat.mod_lt _ (by decide)) first
  obtain ⟨isHexB, valueB⟩ := hexValue_lowerHex (Nat.mod_lt _ (by decide)) second
  obtain ⟨isHexE, valueE⟩ := hexValue_lowerHex (Nat.mod_lt _ (by decide)) third
  obtain ⟨isHexF, valueF⟩ := hexValue_lowerHex (Nat.mod_lt _ (by decide)) fourth
  have radix : (((0 * 16 + c / 16 / 16 / 16 % 16) * 16 + c / 16 / 16 % 16) * 16 + c / 16 % 16) * 16 +
      c % 16 = c := by omega
  have number : Token.ofHex [a, b, e, f] = c := by
    simp only [Token.ofHex, List.foldl_cons, List.foldl_nil, valueA, valueB, valueE, valueF]
    exact radix
  rw [← number]
  refine .numbered rfl ?_
  simp [isHexA, isHexB, isHexE, isHexF]

/-- A spelling is read as the character, or as two surrogates that stand for it. -/
theorem items_of_spelling {c : Code} {t : Text} (spelling : Spelling c t) :
    Items t [c] ∨ ∃ high low, Items t [high, low] ∧ Surrogate.isHigh high = true ∧
      Surrogate.isLow low = true ∧ Surrogate.pair high low = c := by
  cases spelling with
  | raw notQuote notBackslash => exact .inl (Token.items_singleton (.plain notQuote notBackslash))
  | short listed => exact .inl (Token.items_singleton (.short listed))
  | numbered small hex => exact .inl (Token.items_singleton (item_numbered small hex))
  | halves astral bound hex hex' =>
    obtain ⟨high, low, pair⟩ := halves_of_astral astral bound
    have small := Surrogate.isHigh_iff.1 high
    have small' := Surrogate.isLow_iff.1 low
    have first := Token.items_singleton (item_numbered (by omega) hex)
    have second := Token.items_singleton (item_numbered (by omega) hex')
    exact .inr ⟨_, _, Token.items_append first second, high, low, pair⟩

/-- The units that a spelled string is read as come to the string when they are joined.  They begin
with a low surrogate only if the string does. -/
theorem exists_items {x : Text} {parts : List Text} (unpaired : Unpaired x)
    (spelled : List.Forall₂ Spelling x parts) :
    ∃ y, Items parts.flatten y ∧ Surrogate.join y = x ∧
      ∀ c ∈ y.head?, Surrogate.isLow c = true → x.head? = some c := by
  induction spelled with
  | nil => exact ⟨[], .nil, rfl, nofun⟩
  | @cons c t x parts spelling _ ih =>
    obtain ⟨apart, rest⟩ := List.isChain_cons.1 unpaired
    obtain ⟨y, items, joined, head⟩ := ih rest
    rw [List.flatten_cons]
    obtain single | ⟨high, low, double, first, second, pair⟩ := items_of_spelling spelling
    · refine ⟨c :: y, Token.items_append single items, ?_, by rintro _ ⟨⟩ _; rfl⟩
      rw [Surrogate.join_cons, joined]
      rintro c' begins ⟨high, low⟩
      -- Then the string itself would go on with that low surrogate.
      exact apart c' (head c' begins low) ⟨high, low⟩
    · refine ⟨high :: low :: y, Token.items_append double items, ?_, ?_⟩
      · rw [Surrogate.join_pair first second, joined, pair]
      · rintro _ ⟨⟩ both
        have low := Surrogate.isLow_iff.1 both
        have high := Surrogate.isHigh_iff.1 first
        omega

theorem quoted_of_stringText {d : Dialect} {t x : Text} (rendered : StringText d t x) :
    Quoted d t x := by
  cases rendered with
  | verbatim asWritten free => exact .intro (.raw asWritten free)
  | spelled decodes unpaired spelled =>
    obtain ⟨y, items, joined, _⟩ := exists_items unpaired spelled
    rw [← joined]
    exact .intro (.escaped decodes items)

/-! ## Objects -/

theorem insert_of_notMem {α : Type} {key : Text} {value : α} {entries : List (Text × α)}
    (fresh : key ∉ entries.map Prod.fst) : insert key value entries = entries ++ [(key, value)] := by
  induction entries with
  | nil => rfl
  | cons entry entries ih =>
    obtain ⟨k, v⟩ := entry
    simp only [List.map_cons, List.mem_cons, not_or] at fresh
    rw [insert, if_neg (by simpa using Ne.symm fresh.1), ih fresh.2]
    rfl

/-- Members with distinct keys are the entries of the object as they stand. -/
theorem ofMembers_of_nodup {members : List (Text × Json)}
    (distinct : (members.map Prod.fst).Nodup) : ofMembers members = .object members := by
  rw [ofMembers]
  congr 1
  induction members using List.reverseRecOn with
  | nil => rfl
  | append_singleton members member ih =>
    rw [List.map_append, List.map_singleton, List.nodup_append] at distinct
    obtain ⟨earlier, _, apart⟩ := distinct
    have fresh : member.1 ∉ members.map Prod.fst := fun present =>
      apart _ present _ (List.mem_singleton_self _) rfl
    rw [List.foldl_append, ih earlier]
    exact insert_of_notMem fresh

theorem keys_of_keyed {R : Json → Json → Prop} {entries entries' : List (Text × Json)}
    (keyed : List.Forall₂ (Keyed R) entries entries') :
    entries.map Prod.fst = entries'.map Prod.fst := by
  induction keyed with
  | nil => rfl
  | cons entry _ ih =>
    obtain ⟨_⟩ := entry
    rw [List.map_cons, List.map_cons, ih]

/-! ## Values -/

/-- A rendering is derived, at as many levels as the value has, and denotes the same value. -/
theorem exists_valueWithin {d : Dialect} {levels : Nat} {t : Text} {v : Json}
    (rendered : ValueText d t v) (shallow : v.depth ≤ levels) :
    ∃ w, Alike v w ∧ ValueWithin d levels t w := by
  induction levels generalizing t v with
  | zero => cases v <;> simp [depth] at shallow
  | succ levels ih =>
    cases rendered with
    | null => exact ⟨.null, .null, .scalar .null⟩
    | true => exact ⟨.bool true, .bool true, .scalar .true⟩
    | false => exact ⟨.bool false, .bool false, .scalar .false⟩
    | int i => exact ⟨.number (.int i), .number _, .scalar (.number (numberText_decimal d i))⟩
    | string string => exact ⟨_, .string _, .scalar (.string (quoted_of_stringText string))⟩
    | array blank separated blank' =>
      rw [depth] at shallow
      obtain ⟨items, alike, derived⟩ := separated.relate Alike
        (ValueWithin d levels) fun u item member _ rendered =>
          ih rendered (by have := depth_le_depthItems member; omega)
      exact ⟨.array items, .array alike, .array blank derived blank'⟩
    | @object before body after entries order distinct reordered blank separated blank' =>
      rw [depth] at shallow
      obtain ⟨members, alike, derived⟩ := separated.relate (Keyed Alike)
        (Member d (ValueWithin d levels)) fun u entry member _ rendered => by
          have bound := depth_le_depthEntries (reordered.mem_iff.2 member)
          obtain ⟨string, ahead, behind, value⟩ := rendered
          obtain ⟨w, same, within⟩ := ih value (by simp only at bound; omega)
          exact ⟨_, .intro same, .intro (quoted_of_stringText string) ahead behind within⟩
      -- As no key comes twice, the members are the entries of the object.
      have keys : (members.map Prod.fst).Nodup := by
        rw [← keys_of_keyed alike]
        exact (reordered.map Prod.fst).nodup distinct
      refine ⟨.object members, .object reordered alike, ?_⟩
      rw [← ofMembers_of_nodup keys]
      exact .object blank derived blank'

/-! ## Documents -/

theorem document_matches {d : Dialect} (standard : d.StandardSpace) {levels : Nat} {t : Text} {v : Json}
    (padded : Padded d (ValueWithin d levels) t v) :
    ∃ left, (d.document levels).Accepts t v left := by
  obtain ⟨left, value, nothing⟩ := Dialect.accepts_value standard padded
  rw [Dialect.document]
  split
  · obtain ⟨b, space⟩ := d.accepts_whiteSpace left
    rw [nothing] at space
    exact ⟨[], (value.left space).left accepts_eof⟩
  · exact ⟨left, value⟩

/-- A rendering of a value is parsed to this value, but for the order of the entries of objects. -/
theorem parse_rendering {d : Dialect} (standard : d.StandardSpace) {t : Text} {v : Json}
    {levels : Nat} (rendering : Rendering d t v) (shallow : v.depth ≤ levels) :
    ∃ w, Alike v w ∧ parse d (.ofText t) levels = .ok (.ok w) := by
  obtain ⟨blank, rendered, blank'⟩ := rendering
  obtain ⟨w, alike, within⟩ := exists_valueWithin rendered shallow
  obtain ⟨left, accepts⟩ := document_matches standard (.intro blank within blank')
  exact ⟨w, alike, parse_of_accepts accepts⟩

/-- A string with one character spelled as a pair and another by its letter, and entries in another
order than in the value. -/
theorem parse_rendering_of_object :
    Rendering .strict (text "\t\x7b\"b\" : null,\n\"\\u0061\":[-12, \"\\uD83D\\ude00\\n\"]\x7d ")
        (.object [(text "a", .array [.number (.int (-12)), .string [0x1F600, 0x0A]]),
          (text "b", .null)]) ∧
      ∃ w, Alike (.object [(text "a", .array [.number (.int (-12)), .string [0x1F600, 0x0A]]),
          (text "b", .null)]) w ∧
        parse .strict
            (.ofText (text "\t\x7b\"b\" : null,\n\"\\u0061\":[-12, \"\\uD83D\\ude00\\n\"]\x7d ")) 3 =
          .ok (.ok w) := by
  have blank (t : Text) (all : ∀ c ∈ t, c ∈ text " \t\n\r") : Blank .strict t := all
  have none := blank [] (by decide)
  have pair : Spelling 0x1F600 (text "\\uD83D" ++ text "\\ude00") := by
    have high : Hex (highHalf 0x1F600) (text "D83D") := by decide
    have low : Hex (lowHalf 0x1F600) (text "de00") := by decide
    exact .halves (by decide) (by decide) high low
  have smiling : List.Forall₂ Spelling [0x1F600, 0x0A] [text "\\uD83D\\ude00", text "\\n"] :=
    .cons pair (.cons (.short (by decide)) .nil)
  have smile : StringText .strict (text "\"\\uD83D\\ude00\\n\"") [0x1F600, 0x0A] :=
    .spelled rfl (by decide) smiling
  have minusTwelve : ValueText .strict (text "-12") (.number (.int (-12))) := by
    have printed : decimal (-12) = text "-12" := by decide +kernel
    exact printed ▸ .int (-12)
  have first : Separated .strict (ValueText .strict) (text "-12, \"\\uD83D\\ude00\\n\"")
      [.number (.int (-12)), .string [0x1F600, 0x0A]] :=
    .cons minusTwelve (.cons none (blank (text " ") (by decide)) (ValueText.string smile) .nil)
  have items : ValueText .strict (text "[-12, \"\\uD83D\\ude00\\n\"]")
      (.array [.number (.int (-12)), .string [0x1F600, 0x0A]]) := .array none first none
  have spelledA : List.Forall₂ Spelling (text "a") [text "\\u0061"] :=
    .cons (.numbered (by decide) (by decide)) .nil
  have a : StringText .strict (text "\"\\u0061\"") (text "a") := .spelled rfl (by decide) spelledA
  have spelledB : List.Forall₂ Spelling (text "b") [text "b"] :=
    .cons (.raw (by decide) (by decide)) .nil
  have b : StringText .strict (text "\"b\"") (text "b") := .spelled rfl (by decide) spelledB
  have members : Separated .strict (EntryText .strict (ValueText .strict))
      (text "\"b\" : null,\n\"\\u0061\":[-12, \"\\uD83D\\ude00\\n\"]")
      [(text "b", .null), (text "a", .array [.number (.int (-12)), .string [0x1F600, 0x0A]])] :=
    .cons (EntryText.intro b (blank (text " ") (by decide)) (blank (text " ") (by decide)) .null)
      (.cons none (blank (text "\n") (by decide)) (EntryText.intro a none none items) .nil)
  have entries : ValueText .strict
      (text "\x7b\"b\" : null,\n\"\\u0061\":[-12, \"\\uD83D\\ude00\\n\"]\x7d")
      (.object [(text "a", .array [.number (.int (-12)), .string [0x1F600, 0x0A]]),
        (text "b", .null)]) :=
    .object (by decide) (.swap _ _ _) none members none
  have rendering : Rendering .strict
      (text "\t\x7b\"b\" : null,\n\"\\u0061\":[-12, \"\\uD83D\\ude00\\n\"]\x7d ") _ :=
    .intro (blank (text "\t") (by decide)) entries (blank (text " ") (by decide))
  exact ⟨rendering, parse_rendering (by decide) rendering (by decide)⟩

end Rewind.Json
