import Rewind.Json.Reading
import Rewind.Proofs.Text.Utf8

/-! # Documents in bytes

Bytes are parsed as the text that they encode.  Bytes that encode none fail where their longest
well-formed part ends, before anything is parsed. -/

namespace Rewind.Json

section

variable (d : Dialect) {b : Buffer} (kind : b.kind = .bytes) (levels : Nat) (stack : Stack)

include kind

theorem parse_of_encodes {t : Text} (encodes : Utf8.Encodes b.codes t) :
    parse d b levels stack = parse d (.ofText t) levels stack := by
  rw [parse, parseJournaled, kind]
  simp only [Utf8.decode_eq_ok encodes]
  rfl

theorem exists_parse_of_not_wellFormed (illFormed : ¬ Utf8.WellFormed b.codes) :
    ∃ k < b.size, Utf8.WellFormed (b.codes.take k) ∧
      (∀ n ≤ b.size, Utf8.WellFormed (b.codes.take n) → n ≤ k) ∧
      parse d b levels stack =
        .ok (.error ⟨k, [text "UTF-8 text"], some (b.slice k (k + 1))⟩) := by
  obtain ⟨k, stuck, fails⟩ := Utf8.exists_decode_eq_error illFormed
  have inside := stuck.inside
  rw [Buffer.length_codes] at inside
  refine ⟨k, inside, stuck.wellFormed, fun n bound wellFormed => ?_, ?_⟩
  · rw [← Buffer.length_codes] at bound
    exact stuck.le bound wellFormed
  · rw [parse, parseJournaled, kind]
    simp only [fails]

/-- Well-formed bytes have the outcome of the text that they encode.  Bytes that are not well formed
fail at the end of their longest well-formed part, showing the byte there. -/
theorem parse_bytes :
    (∀ t, Utf8.Encodes b.codes t → parse d b levels stack = parse d (.ofText t) levels stack) ∧
      (¬ Utf8.WellFormed b.codes →
        ∃ k < b.size, Utf8.WellFormed (b.codes.take k) ∧
          (∀ n ≤ b.size, Utf8.WellFormed (b.codes.take n) → n ≤ k) ∧
          parse d b levels stack =
            .ok (.error ⟨k, [text "UTF-8 text"], some (b.slice k (k + 1))⟩)) :=
  ⟨fun _ => parse_of_encodes d kind levels stack, exists_parse_of_not_wellFormed d kind levels stack⟩

end

/-- Characters of two and of four bytes, and a surrogate after them. -/
theorem parse_bytes_before_surrogate :
    parse .strict ⟨.bytes, #[0x22, 0xC3, 0xA9, 0xF0, 0x9F, 0x98, 0x80, 0x22]⟩ 1 =
        parse .strict (.ofText [0x22, 0xE9, 0x1F600, 0x22]) 1 ∧
      ∃ k < 11, 7 ≤ k ∧ parse .strict ⟨.bytes, #[0x22, 0xC3, 0xA9, 0xF0, 0x9F, 0x98, 0x80, 0xED, 0xA0,
        0x80, 0x22]⟩ 1 = .ok (.error ⟨k, [text "UTF-8 text"], some (Buffer.slice ⟨.bytes, #[0x22, 0xC3,
        0xA9, 0xF0, 0x9F, 0x98, 0x80, 0xED, 0xA0, 0x80, 0x22]⟩ k (k + 1))⟩) := by
  constructor
  · exact (parse_bytes .strict rfl 1 []).1 [0x22, 0xE9, 0x1F600, 0x22] ⟨by decide, rfl⟩
  · obtain ⟨k, inside, _, longest, fails⟩ := (parse_bytes .strict
      (b := ⟨.bytes, #[0x22, 0xC3, 0xA9, 0xF0, 0x9F, 0x98, 0x80, 0xED, 0xA0, 0x80, 0x22]⟩) rfl 1 []).2 (by
        rintro ⟨t, encodes⟩
        have decoded := Utf8.decode_eq_ok encodes
        have stops : Utf8.decode [0x22, 0xC3, 0xA9, 0xF0, 0x9F, 0x98, 0x80, 0xED, 0xA0, 0x80, 0x22] =
            .error 7 := by cbv
        cases decoded.symm.trans stops)
    refine ⟨k, inside, longest 7 (by decide) ⟨[0x22, 0xE9, 0x1F600], ?_, rfl⟩, fails⟩
    decide

end Rewind.Json
