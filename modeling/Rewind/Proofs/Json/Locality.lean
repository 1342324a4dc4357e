import Mathlib.Order.Lattice.Nat
import Rewind.Proofs.Json.Overlap
import Rewind.Proofs.Json.Prospects
import Rewind.Proofs.Json.Recognition

/-! # Where a document is wrong

A text that is rejected has a longest prefix that begins a document.  The failure lies at its end, at
the first character that cannot stand where it stands; only if the prefix ends within a word, the
failure lies at the start of that word.

That the failure does not lie beyond the prefix is what failures are about: what stands before one can
be continued.  That it does not lie before the end of the prefix is shown on the continuation, with zeros
in the place of digits: this is a document, so it is accepted, and as far as the prefix goes, the run on
the text takes the same course. -/

namespace Rewind.Json

open Rewind.Parser Syntax

def BeginsWord (t : Text) : Prop := ∃ w ∈ words, t <+: w ∧ t ≠ w

theorem beginsWord_nil : BeginsWord [] :=
  ⟨text "null", by decide, List.nil_prefix, by decide⟩

variable {d : Dialect} {t : Text}

theorem viable_nil (d : Dialect) : Viable d [] :=
  ⟨text "null", .null, padded_self .null⟩

/-- The longest prefix that begins a document. -/
theorem exists_longest_viable (d : Dialect) (t : Text) :
    ∃ L, IsGreatest {n | n ≤ t.length ∧ Viable d (t.take n)} L := by
  have bounded : BddAbove {n | n ≤ t.length ∧ Viable d (t.take n)} :=
    ⟨t.length, fun n member => member.1⟩
  have nonempty : {n | n ≤ t.length ∧ Viable d (t.take n)}.Nonempty := ⟨0, Nat.zero_le _, viable_nil d⟩
  exact ⟨_, Nat.sSup_mem nonempty bounded, fun n member => le_csSup bounded member⟩

/-! ## The text and its continuation -/

theorem getElem?_zeroed (u : Text) {reach i : Nat} (inside : reach ≤ t.length) (before : i < reach) :
    (Buffer.ofText ((t.take reach ++ u).map zeroed)).units[i]? =
      (Buffer.ofText t).units[i]?.map zeroed := by
  have first : i < (t.take reach).length := by
    rw [List.length_take]
    omega
  simp only [Buffer.ofText, List.getElem?_toArray, List.getElem?_map,
    List.getElem?_append_left first, List.getElem?_take_of_lt before]

theorem reach_le_size_zeroed (u : Text) {reach : Nat} (inside : reach ≤ t.length) :
    reach ≤ (Buffer.ofText ((t.take reach ++ u).map zeroed)).size := by
  rw [Buffer.size_ofText, List.length_map, List.length_append, List.length_take]
  omega

/-- A text and a continuation of its first `reach` characters, with zeros for digits. -/
def zeroedOverlap (t u : Text) (reach : Nat) (inside : reach ≤ t.length) : Overlap where
  source := .ofText t
  copy := .ofText ((t.take reach ++ u).map zeroed)
  image := zeroed
  reach := reach
  source_text := rfl
  copy_text := rfl
  source_inside := inside.trans_eq (Buffer.size_ofText t).symm
  copy_inside := reach_le_size_zeroed u inside
  alike _ before := getElem?_zeroed u inside before

/-- Where a word is cut off, the text holds the beginning of a word. -/
theorem beginsWord_of_cutOff {u : Text} {reach pos : Nat} {inside : reach ≤ t.length}
    (cut : CutOff (zeroedOverlap t u reach inside) pos) : BeginsWord ((t.take reach).drop pos) := by
  obtain ⟨before, w, listed, there, absent⟩ := cut
  have free : ∀ w ∈ words, ∀ c ∈ w, CharClass.isDigit c = false := by decide
  have clear (c : Code) (member : c ∈ w) (x : Code) : zeroed x = c ↔ x = c :=
    zeroed_eq_iff (free w listed c member)
  have short : reach < pos + w.length := by
    by_contra fits
    exact absent ((Overlap.isPrefix_iff (o := zeroedOverlap t u reach inside) clear
      (Nat.not_lt.1 fits)).1 there)
  have begins := Overlap.take_isPrefix (o := zeroedOverlap t u reach inside) clear there
    (Nat.le_of_lt short)
  have same : (t.take reach).drop pos =
      ((zeroedOverlap t u reach inside).sourceAt pos).rest.take (reach - pos) := by
    rw [List.drop_take]
    simp only [Overlap.sourceAt, zeroedOverlap, State.rest, Buffer.rest, Buffer.codes_ofText]
  refine ⟨w, listed, same ▸ begins, fun complete => ?_⟩
  have length := congrArg List.length complete
  rw [List.length_drop, List.length_take] at length
  have before : pos < reach := before
  omega

/-! ## The failure -/

theorem exists_failed_of_rejected {levels : Nat} {e : Failure}
    (rejected : ((d.document levels).parse (.ofText t)).1.result = .ok (.error e)) :
    ∃ pos, ((d.document levels).parse (.ofText t)).1 = .failed pos e := by
  cases replied : ((d.document levels).parse (.ofText t)).1 with
  | matched v pos ghost => simp [replied, Reply.result] at rejected
  | failed pos error =>
    simp only [replied, Reply.result, Except.ok.injEq, Except.error.injEq] at rejected
    exact ⟨pos, by rw [rejected]⟩
  | fault cause => simp [replied, Reply.result] at rejected

/-- Before the end of a prefix that begins a document, only a word that is cut off fails. -/
theorem cutOff_of_failed (ends : d.requireEnd = true) (standard : d.StandardSpace) {u : Text}
    {v : Json} {levels reach pos : Nat} {e : Failure} (inside : reach ≤ t.length)
    (form : Padded d (Form d) (t.take reach ++ u) v) (deep : (t.take reach ++ u).length ≤ levels)
    (failed : ((d.document levels).parse (.ofText t)).1 = .failed pos e) (early : e.pos < reach) :
    CutOff (zeroedOverlap t u reach inside) e.pos := by
  obtain ⟨w, document⟩ := exists_document_zeroed standard form
  let o := zeroedOverlap t u reach inside
  rw [← List.length_map zeroed] at deep
  have start : (o.copyAt 0).rest = (t.take reach ++ u).map zeroed := by
    simp [Overlap.copyAt, o, zeroedOverlap, State.rest]
  obtain ⟨stop, ghost, accepted, _⟩ :=
    Dialect.accepts_document ends standard document deep (o.copyAt 0) rfl start .empty
  have failed' : ((d.document levels).run (o.sourceAt 0) .empty).1 = .failed pos e := failed
  have before : ((d.document levels).run (o.sourceAt 0) .empty).1.Before o.reach := by
    rw [failed']
    refine ⟨?_, trivial⟩
    rintro _ ⟨⟩
    exact early
  obtain like | broken :=
    Dialect.follows_document (o := o) rfl standard ends levels 0 .empty .empty before
  · -- The document is accepted, so the text would be as well.
    rw [failed', accepted] at like
    cases like
  · rw [failed'] at broken
    obtain ⟨_, _, ⟨⟩, cut⟩ := broken
    exact cut

/-- If the rejected text lies within the limit on the nesting, its failure lies at the end of the longest
prefix that begins a document, or at the start of the word within which that prefix ends. -/
theorem parse_locates {d : Dialect} (ends : d.requireEnd = true) (standard : d.StandardSpace) {t : Text}
    {e : Failure} {levels : Nat} {stack : Stack}
    (rejected : parse d (.ofText t) levels stack = .ok (.error e))
    (within : WithinLimit (parseJournaled d (.ofText t) levels stack).2) :
    ∃ L, IsGreatest {n | n ≤ t.length ∧ Viable d (t.take n)} L ∧ e.pos ≤ L ∧
      Viable d (t.take e.pos) ∧ BeginsWord ((t.take L).drop e.pos) := by
  obtain ⟨L, ⟨inside, viable⟩, greatest⟩ := exists_longest_viable d t
  have rejectedWith (more : Nat) (deeper : levels ≤ more) :
      ((d.document more).parse (.ofText t)).1.result = .ok (.error e) :=
    (parse_eq_of_withinLimit deeper within).symm.trans rejected
  obtain ⟨_, failed⟩ := exists_failed_of_rejected (rejectedWith levels (Nat.le_refl _))
  have begins := d.viable_of_failed ends failed
  have reached : e.pos ≤ L := greatest begins
  refine ⟨L, ⟨⟨inside, viable⟩, greatest⟩, reached, begins.2, ?_⟩
  obtain early | rfl := Nat.lt_or_eq_of_le reached
  · obtain ⟨u, v, form⟩ := viable
    -- The run is given as many levels as the continuation needs.
    obtain ⟨_, failed⟩ := exists_failed_of_rejected (rejectedWith _ (Nat.le_max_left levels _))
    exact beginsWord_of_cutOff
      (cutOff_of_failed ends standard inside form (Nat.le_max_right levels _) failed early)
  · rw [List.drop_take, Nat.sub_self, List.take_zero]
    exact beginsWord_nil

/-- A word that is not complete at the end of the text. -/
theorem parse_locates_in_array :
    ∃ L, IsGreatest {n | n ≤ 7 ∧ Viable .strict ((text "[1, tru").take n)} L ∧ 4 ≤ L ∧
      Viable .strict ((text "[1, tru").take 4) ∧ BeginsWord (((text "[1, tru").take L).drop 4) := by
  have rejected : parse .strict (.ofText (text "[1, tru")) 2 =
      .ok (.error ⟨4, [quoted (text "\x7b"), quoted (text "["), quoted (text "\""), quoted (text "true"),
        quoted (text "false"), quoted (text "null"), quoted (text "-"), quoted (text "+"),
        text "digit"], some (.ofText (text "t"))⟩) := by decide +kernel
  exact parse_locates rfl (by decide) rejected (by decide +kernel)

end Rewind.Json
