/-
Module: Outline.Proofs.Text.Utf8
Layer: Proofs
Purpose: What the replacing decoder makes of any bytes, said by the encoding of characters alone. Where the bytes begin
  with a character it is read, and else the longest piece that begins some character, or the first byte if there is
  none, becomes one replacement character. Characters end of themselves, so that bytes behind whole characters are
  decoded as if they stood alone, even where the first of these characters has lost its beginning.
Main exports: Opening, opening?, step_eq, Follow, encoding_of_opening, exists_opening, step_encoding, FaultyPiece,
  step_cases, Replaced, replaced_iff, decodeReplacing_flatMap, decodeReplacing_encoded, decodeReplacing_behind
-/
import Mathlib.Data.List.Basic
import Outline.Proofs.Text.Bytes
import Outline.Text.Utf8

namespace Outline.Text.Utf8

/-!
### Lead bytes
-/

/-- What the first byte of a character announces: how many bytes follow, the bounds of the first of these, and its own
    part of the code point. -/
structure Opening where
  count : Nat
  low : Nat
  high : Nat
  value : Nat

/-- What a byte announces, if it can be the first of a character. -/
def opening? (lead : UInt8) : Option Opening :=
  let n := lead.toNat
  if n < 0x80 then some ⟨0, 0x80, 0xBF, n⟩
  else if n < 0xC2 then none
  else if n < 0xE0 then some ⟨1, 0x80, 0xBF, n - 0xC0⟩
  else if n < 0xF0 then
    some ⟨2, if n = 0xE0 then 0xA0 else 0x80, if n = 0xED then 0x9F else 0xBF, n - 0xE0⟩
  else if n < 0xF5 then
    some ⟨3, if n = 0xF0 then 0x90 else 0x80, if n = 0xF4 then 0x8F else 0xBF, n - 0xF0⟩
  else none

/-- The decoder reads on as the first byte announces. -/
theorem step_eq (lead : UInt8) (rest : List UInt8) :
    step lead rest =
      match opening? lead with
      | some o => continuation o.low o.high o.count 0 o.value rest
      | none => .illFormed .invalidStart 0 := by
  simp only [step, opening?]
  by_cases ascii : lead.toNat < 0x80
  · simp [ascii, continuation]
  by_cases stray : lead.toNat < 0xC2
  · simp [ascii, stray]
  by_cases two : lead.toNat < 0xE0
  · simp [ascii, stray, two]
  by_cases three : lead.toNat < 0xF0
  · simp [ascii, stray, two, three]
  by_cases four : lead.toNat < 0xF5
  · simp [ascii, stray, two, three, four]
  · simp [ascii, stray, two, three, four]

theorem opening?_ascii {lead : UInt8} (high : lead.toNat < 0x80) :
    opening? lead = some ⟨0, 0x80, 0xBF, lead.toNat⟩ := by
  simp [opening?, high]

theorem opening?_stray {lead : UInt8} (low : 0x80 ≤ lead.toNat) (high : lead.toNat < 0xC2) : opening? lead = none := by
  simp [opening?, Nat.not_lt.2 low, high]

/-- Bytes from 0xC2 to 0xDF open a character of two bytes. -/
theorem opening?_two {lead : UInt8} (low : 0xC2 ≤ lead.toNat) (high : lead.toNat < 0xE0) :
    opening? lead = some ⟨1, 0x80, 0xBF, lead.toNat - 0xC0⟩ := by
  have notAscii : ¬ lead.toNat < 0x80 := by omega
  simp [opening?, notAscii, Nat.not_lt.2 low, high]

/-- Bytes from 0xE0 to 0xEF open a character of three bytes; the second is bounded for two of them. -/
theorem opening?_three {lead : UInt8} (low : 0xE0 ≤ lead.toNat) (high : lead.toNat < 0xF0) :
    opening? lead = some ⟨2, if lead.toNat = 0xE0 then 0xA0 else 0x80, if lead.toNat = 0xED then 0x9F else 0xBF,
      lead.toNat - 0xE0⟩ := by
  have notAscii : ¬ lead.toNat < 0x80 := by omega
  have notStray : ¬ lead.toNat < 0xC2 := by omega
  simp [opening?, notAscii, notStray, Nat.not_lt.2 low, high]

/-- Bytes from 0xF0 to 0xF4 open a character of four bytes; the second is bounded for two of them. -/
theorem opening?_four {lead : UInt8} (low : 0xF0 ≤ lead.toNat) (high : lead.toNat < 0xF5) :
    opening? lead = some ⟨3, if lead.toNat = 0xF0 then 0x90 else 0x80, if lead.toNat = 0xF4 then 0x8F else 0xBF,
      lead.toNat - 0xF0⟩ := by
  have notAscii : ¬ lead.toNat < 0x80 := by omega
  have notStray : ¬ lead.toNat < 0xC2 := by omega
  have notTwo : ¬ lead.toNat < 0xE0 := by omega
  simp [opening?, notAscii, notStray, notTwo, Nat.not_lt.2 low, high]

/-- The bounds that a first byte announces are bounds of continuation bytes, and some byte lies between them. -/
theorem bounds_of_opening {lead : UInt8} {o : Opening} (opens : opening? lead = some o) :
    0x80 ≤ o.low ∧ o.low ≤ o.high ∧ o.high ≤ 0xBF := by
  simp only [opening?] at opens
  split at opens
  · cases opens
    simp
  split at opens
  · cases opens
  split at opens
  · cases opens
    simp
  split at opens
  · cases opens
    dsimp only
    split <;> split <;> omega
  split at opens
  · cases opens
    dsimp only
    split <;> split <;> omega
  · cases opens

theorem within_iff {low high : Nat} {b : UInt8} : within low high b = true ↔ low ≤ b.toNat ∧ b.toNat ≤ high := by
  simp [within]

/-- The bounds of the second byte, which two first bytes narrow: one at the lower end, one at the upper. -/
theorem within_narrowed_iff {n least most low high : Nat} {b : UInt8} (above : 0x80 ≤ low) (below : high ≤ 0xBF) :
    within (if n = least then low else 0x80) (if n = most then high else 0xBF) b = true ↔
      (0x80 ≤ b.toNat ∧ b.toNat ≤ 0xBF) ∧ (n = least → low ≤ b.toNat) ∧ (n = most → b.toNat ≤ high) := by
  rw [within_iff]
  split
  · split <;> omega
  · split <;> omega

/-- Continuation bytes of which the first lies between two bounds. -/
def Follow (low high : Nat) : List UInt8 → Prop
  | [] => True
  | b :: bs => within low high b = true ∧ Follow 0x80 0xBF bs

/-- The code point that continuation bytes make of the part before them. -/
def codePoint (value : Nat) (bs : List UInt8) : Nat := bs.foldl (fun v b => v * 64 + payload b) value

section Follow

variable {low high : Nat} {bs cs : List UInt8}

theorem Follow.left (follow : Follow low high (bs ++ cs)) : Follow low high bs := by
  induction bs generalizing low high with
  | nil => trivial
  | cons b bs ih => exact ⟨follow.1, ih follow.2⟩

/-- Continuation bytes can be added as long as some are missing. -/
theorem Follow.exists_completion (follow : Follow low high bs) (bounds : low ≤ high) (small : high < 256) {count : Nat}
    (short : bs.length ≤ count) : ∃ cs, Follow low high (bs ++ cs) ∧ (bs ++ cs).length = count := by
  induction count generalizing low high bs with
  | zero =>
      have none : bs = [] := List.length_eq_zero_iff.1 (Nat.le_zero.1 short)
      exact ⟨[], by simpa using follow, by simp [none]⟩
  | succ count ih =>
      cases bs with
      | nil =>
          have none : Follow 0x80 0xBF [] := trivial
          obtain ⟨cs, follows, length⟩ := ih none (by decide) (by decide) (Nat.zero_le count)
          have first : within low high (UInt8.ofNat low) = true := by
            have code : (UInt8.ofNat low).toNat = low := by
              rw [UInt8.toNat_ofNat']
              omega
            simp [within, code, bounds]
          exact ⟨UInt8.ofNat low :: cs, ⟨first, follows⟩, by simpa using length⟩
      | cons b bs =>
          obtain ⟨cs, follows, length⟩ := ih follow.2 (by decide) (by decide) (by simpa using short)
          exact ⟨cs, ⟨follow.1, follows⟩, by simpa using length⟩

end Follow

/-- Reading continuation bytes finds as many as are missing, or stops behind the longest piece that follows. -/
theorem continuation_cases (low high count seen value : Nat) (bytes : List UInt8) :
    ∃ bs rest, bytes = bs ++ rest ∧ Follow low high bs ∧
      (bs.length = count ∧
          continuation low high count seen value bytes = .scalar (Char.ofNat (codePoint value bs)) (seen + count) ∨
        bs.length < count ∧ (∀ longer, longer <+: bytes → Follow low high longer → longer.length ≤ bs.length) ∧
          ∃ fault, continuation low high count seen value bytes = .illFormed fault (seen + bs.length)) := by
  induction count generalizing low high seen value bytes with
  | zero => exact ⟨[], bytes, rfl, trivial, .inl ⟨rfl, by simp [continuation, codePoint]⟩⟩
  | succ count ih =>
      cases bytes with
      | nil => exact ⟨[], [], rfl, trivial, .inr ⟨by simp, by simp, .unexpectedEnd, by simp [continuation]⟩⟩
      | cons b bytes =>
          cases inBounds : within low high b with
          | false =>
              refine ⟨[], b :: bytes, rfl, trivial, .inr ⟨by simp, ?_, .invalidContinuation, ?_⟩⟩
              · intro longer begins follow
                cases longer with
                | nil => exact Nat.le_refl 0
                | cons b' longer =>
                    cases (List.cons_prefix_cons.1 begins).1
                    exact absurd follow.1 (by simp [inBounds])
              · simp [continuation, inBounds]
          | true =>
              obtain ⟨bs, rest, rfl, follow, ends⟩ := ih 0x80 0xBF (seen + 1) (value * 64 + payload b) bytes
              refine ⟨b :: bs, rest, rfl, ⟨inBounds, follow⟩, ?_⟩
              rcases ends with ⟨length, read⟩ | ⟨short, longest, fault, read⟩
              · refine .inl ⟨by simp [length], ?_⟩
                simp [continuation, inBounds, read, codePoint]
                omega
              · refine .inr ⟨by simpa using short, ?_, fault, ?_⟩
                · intro longer begins further
                  cases longer with
                  | nil => exact Nat.zero_le _
                  | cons b' longer =>
                      exact Nat.succ_le_succ (longest longer (List.cons_prefix_cons.1 begins).2 further.2)
                · simp [continuation, inBounds, read]
                  omega

/-!
### Encodings
-/

theorem toNat_ofNat_of_valid {n : Nat} (valid : n.isValidChar) : (Char.ofNat n).val.toNat = n := by
  rw [Char.ofNat, dif_pos valid]
  rfl

section CodePoints

variable {n : Nat}

theorem encoding_one (high : n < 0x80) : String.utf8EncodeChar (Char.ofNat n) = [UInt8.ofNat n] := by
  have code : (Char.ofNat n).val.toNat = n := toNat_ofNat_of_valid (by omega)
  simp [String.utf8EncodeChar, code, Nat.le_of_lt_succ high]

/-- Code points below 0x800 are written in two bytes. -/
theorem encoding_two (low : 0x80 ≤ n) (high : n < 0x800) :
    String.utf8EncodeChar (Char.ofNat n) = [UInt8.ofNat (n / 64 + 0xC0), UInt8.ofNat (n % 64 + 0x80)] := by
  have code : (Char.ofNat n).val.toNat = n := toNat_ofNat_of_valid (by omega)
  have wide : ¬ n ≤ 0x7F := by omega
  have lead : n / 64 % 32 = n / 64 := by omega
  simp [String.utf8EncodeChar, code, wide, Nat.le_of_lt_succ high, lead]

/-- Code points below 0x10000 are written in three bytes. -/
theorem encoding_three (valid : n.isValidChar) (low : 0x800 ≤ n) (high : n < 0x10000) :
    String.utf8EncodeChar (Char.ofNat n) =
      [UInt8.ofNat (n / 4096 + 0xE0), UInt8.ofNat (n / 64 % 64 + 0x80), UInt8.ofNat (n % 64 + 0x80)] := by
  have code : (Char.ofNat n).val.toNat = n := toNat_ofNat_of_valid valid
  have wide : ¬ n ≤ 0x7F := by omega
  have wider : ¬ n ≤ 0x7FF := by omega
  have lead : n / 4096 % 16 = n / 4096 := by omega
  simp [String.utf8EncodeChar, code, wide, wider, Nat.le_of_lt_succ high, lead]

theorem encoding_four (low : 0x10000 ≤ n) (high : n < 0x110000) :
    String.utf8EncodeChar (Char.ofNat n) =
      [UInt8.ofNat (n / 262144 + 0xF0), UInt8.ofNat (n / 4096 % 64 + 0x80), UInt8.ofNat (n / 64 % 64 + 0x80),
        UInt8.ofNat (n % 64 + 0x80)] := by
  have code : (Char.ofNat n).val.toNat = n := toNat_ofNat_of_valid (by omega)
  have wide : ¬ n ≤ 0x7F := by omega
  have wider : ¬ n ≤ 0x7FF := by omega
  have widest : ¬ n ≤ 0xFFFF := by omega
  have lead : n / 262144 % 8 = n / 262144 := by omega
  simp [String.utf8EncodeChar, code, wide, wider, widest, lead]

theorem ofNat_eq {b : UInt8} (same : n = b.toNat) : UInt8.ofNat n = b := by
  rw [same, UInt8.ofNat_toNat]

end CodePoints

/-- A first byte with all the bytes that it announces is the encoding of a character. -/
theorem encoding_of_opening {lead : UInt8} {o : Opening} {bs : List UInt8} (opens : opening? lead = some o)
    (follow : Follow o.low o.high bs) (length : bs.length = o.count) :
    String.utf8EncodeChar (Char.ofNat (codePoint o.value bs)) = lead :: bs := by
  simp only [opening?] at opens
  split at opens
  next ascii =>
    cases opens
    cases List.length_eq_zero_iff.1 length
    exact (encoding_one ascii).trans (by rw [UInt8.ofNat_toNat])
  split at opens
  next => cases opens
  split at opens
  next two =>
    cases opens
    obtain ⟨b, rfl⟩ := List.length_eq_one_iff.1 length
    simp only [Follow, within_iff, and_true] at follow
    have value : codePoint (lead.toNat - 0xC0) [b] = (lead.toNat - 0xC0) * 64 + (b.toNat - 0x80) := rfl
    rw [value, encoding_two (by omega) (by omega), ofNat_eq (b := lead) (by omega), ofNat_eq (b := b) (by omega)]
  split at opens
  next three =>
    cases opens
    obtain ⟨b, c, rfl⟩ := List.length_eq_two.1 length
    simp only [Follow, and_true] at follow
    rw [within_narrowed_iff (by decide) (by decide)] at follow
    simp only [within_iff] at follow
    have value : codePoint (lead.toNat - 0xE0) [b, c] =
      ((lead.toNat - 0xE0) * 64 + (b.toNat - 0x80)) * 64 + (c.toNat - 0x80) := rfl
    have valid : (codePoint (lead.toNat - 0xE0) [b, c]).isValidChar := by
      rw [value]
      omega
    rw [value] at valid ⊢
    rw [encoding_three valid (by omega) (by omega), ofNat_eq (b := lead) (by omega), ofNat_eq (b := b) (by omega),
      ofNat_eq (b := c) (by omega)]
  split at opens
  next four =>
    cases opens
    obtain ⟨b, c, d, rfl⟩ := List.length_eq_three.1 length
    simp only [Follow, and_true] at follow
    rw [within_narrowed_iff (by decide) (by decide)] at follow
    simp only [within_iff] at follow
    have value : codePoint (lead.toNat - 0xF0) [b, c, d] =
      (((lead.toNat - 0xF0) * 64 + (b.toNat - 0x80)) * 64 + (c.toNat - 0x80)) * 64 + (d.toNat - 0x80) := rfl
    rw [value, encoding_four (by omega) (by omega), ofNat_eq (b := lead) (by omega), ofNat_eq (b := b) (by omega),
      ofNat_eq (b := c) (by omega), ofNat_eq (b := d) (by omega)]
  next => cases opens

/-- The encoding of a character is a first byte with all the bytes that it announces. -/
theorem exists_opening (c : Char) :
    ∃ lead bs o, String.utf8EncodeChar c = lead :: bs ∧ opening? lead = some o ∧ Follow o.low o.high bs ∧
      bs.length = o.count := by
  obtain ⟨n, valid, rfl⟩ : ∃ n : Nat, n.isValidChar ∧ c = Char.ofNat n := ⟨c.toNat, c.valid, (Char.ofNat_toNat c).symm⟩
  have code : ∀ m, m < 256 → (UInt8.ofNat m).toNat = m := fun m small => UInt8.toNat_ofNat_of_lt small
  have last := code (n % 64 + 0x80) (by omega)
  have lastFollows : within 0x80 0xBF (UInt8.ofNat (n % 64 + 0x80)) = true := within_iff.2 (by omega)
  have middle := code (n / 64 % 64 + 0x80) (by omega)
  have middleFollows : within 0x80 0xBF (UInt8.ofNat (n / 64 % 64 + 0x80)) = true := within_iff.2 (by omega)
  by_cases ascii : n < 0x80
  · have lead := code n (by omega)
    exact ⟨_, _, _, encoding_one ascii, opening?_ascii (by omega), trivial, rfl⟩
  by_cases two : n < 0x800
  · have lead := code (n / 64 + 0xC0) (by omega)
    exact ⟨_, _, _, encoding_two (by omega) two, opening?_two (by omega) (by omega), ⟨lastFollows, trivial⟩, rfl⟩
  by_cases three : n < 0x10000
  · have lead := code (n / 4096 + 0xE0) (by omega)
    refine ⟨_, _, _, encoding_three valid (by omega) three, opening?_three (by omega) (by omega),
      ⟨?_, lastFollows, trivial⟩, rfl⟩
    rw [within_narrowed_iff (by decide) (by decide), lead, middle]
    exact ⟨by omega, by omega, by omega⟩
  · have lead := code (n / 262144 + 0xF0) (by omega)
    have second := code (n / 4096 % 64 + 0x80) (by omega)
    refine ⟨_, _, _, encoding_four (by omega) (by omega), opening?_four (by omega) (by omega),
      ⟨?_, middleFollows, lastFollows, trivial⟩, rfl⟩
    rw [within_narrowed_iff (by decide) (by decide), lead, second]
    exact ⟨by omega, by omega, by omega⟩

/-- What follows the first byte of a character is announced by it. -/
theorem opening_of_encoding {c : Char} {lead : UInt8} {bs : List UInt8}
    (encoded : String.utf8EncodeChar c = lead :: bs) :
    ∃ o, opening? lead = some o ∧ Follow o.low o.high bs ∧ bs.length = o.count := by
  obtain ⟨lead', bs', o, encoded', opens, follow, length⟩ := exists_opening c
  cases encoded.symm.trans encoded'
  exact ⟨o, opens, follow, length⟩

/-!
### Steps
-/

/-- A character at the front is read, whatever stands behind it. -/
theorem step_encoding {c : Char} {lead : UInt8} {bs : List UInt8} (encoded : String.utf8EncodeChar c = lead :: bs)
    (rest : List UInt8) : step lead (bs ++ rest) = .scalar c bs.length := by
  obtain ⟨o, opens, follow, length⟩ := opening_of_encoding encoded
  obtain ⟨bs', rest', split, follow', ends⟩ := continuation_cases o.low o.high o.count 0 o.value (bs ++ rest)
  have stepped : step lead (bs ++ rest) = continuation o.low o.high o.count 0 o.value (bs ++ rest) := by
    rw [step_eq, opens]
  rcases ends with ⟨length', read⟩ | ⟨short, longest, _⟩
  · obtain ⟨rfl, -⟩ := List.append_inj split (length.trans length'.symm)
    have same : Char.ofNat (codePoint o.value bs) = c :=
      utf8EncodeChar_injective ((encoding_of_opening opens follow length).trans encoded.symm)
    rw [stepped, read, same, length, Nat.zero_add]
  · have reach := longest bs (List.prefix_append bs rest) follow
    omega

/-- A piece at the front of some bytes that is shown as one replacement character. No character stands at the front;
    the piece is the longest one there that begins the encoding of a character, or a single byte if there is none. -/
structure FaultyPiece (piece rest : List UInt8) : Prop where
  nonempty : piece ≠ []
  unread : ∀ c, ¬ String.utf8EncodeChar c <+: piece ++ rest
  begins : piece.length = 1 ∨ ∃ c, piece <+: String.utf8EncodeChar c
  longest : ∀ longer c, longer <+: piece ++ rest → longer <+: String.utf8EncodeChar c → longer.length ≤ piece.length

/-- The same bytes begin with one faulty piece only. -/
theorem FaultyPiece.length_le {piece piece' rest rest' : List UInt8} (faulty : FaultyPiece piece rest)
    (faulty' : FaultyPiece piece' rest') (same : piece ++ rest = piece' ++ rest') : piece.length ≤ piece'.length := by
  rcases faulty.begins with single | ⟨c, begins⟩
  · have some := List.length_pos_iff.2 faulty'.nonempty
    omega
  · exact faulty'.longest piece c (same ▸ List.prefix_append piece rest) begins

/-- A byte that announces nothing is a faulty piece. -/
theorem faultyPiece_of_stray {lead : UInt8} (stray : opening? lead = none) (rest : List UInt8) :
    FaultyPiece [lead] rest := by
  have notFirst : ∀ c bs, ¬ String.utf8EncodeChar c = lead :: bs := by
    intro c bs encoded
    obtain ⟨o, opens, -, -⟩ := opening_of_encoding encoded
    simp [stray] at opens
  constructor
  · exact List.cons_ne_nil lead []
  · intro c read
    obtain ⟨lead', bs, o, encoded, -, -, -⟩ := exists_opening c
    rw [encoded] at read
    cases (List.cons_prefix_cons.1 read).1
    exact notFirst c bs encoded
  · exact .inl rfl
  · intro longer c stands begins
    cases longer with
    | nil => exact Nat.zero_le _
    | cons b longer =>
        cases (List.cons_prefix_cons.1 stands).1
        obtain ⟨more, encoded⟩ := begins
        exact absurd encoded.symm (notFirst c _)

/-- A first byte with the longest piece that follows it is a faulty piece, if bytes are missing. -/
theorem faultyPiece_of_short {lead : UInt8} {o : Opening} {bs rest : List UInt8} (opens : opening? lead = some o)
    (follow : Follow o.low o.high bs) (short : bs.length < o.count)
    (longest : ∀ longer, longer <+: bs ++ rest → Follow o.low o.high longer → longer.length ≤ bs.length) :
    FaultyPiece (lead :: bs) rest := by
  constructor
  · exact List.cons_ne_nil lead bs
  · intro c read
    obtain ⟨lead', bs', o', encoded, opens', follow', length⟩ := exists_opening c
    rw [encoded] at read
    obtain ⟨rfl, behind⟩ := List.cons_prefix_cons.1 read
    cases opens.symm.trans opens'
    have bound := longest bs' behind follow'
    omega
  · obtain ⟨lower, between, upper⟩ := bounds_of_opening opens
    obtain ⟨more, follows, length⟩ := follow.exists_completion between (by omega) (Nat.le_of_lt short)
    refine .inr ⟨Char.ofNat (codePoint o.value (bs ++ more)), ?_⟩
    rw [encoding_of_opening opens follows length]
    exact List.prefix_append (lead :: bs) more
  · intro longer c stands begins
    cases longer with
    | nil => exact Nat.zero_le _
    | cons b longer =>
        obtain ⟨rfl, behind⟩ := List.cons_prefix_cons.1 stands
        -- What begins the encoding of a character follows the first byte as that announces.
        obtain ⟨more, encoded⟩ := begins
        obtain ⟨o', opens', follow', -⟩ := opening_of_encoding encoded.symm
        cases opens.symm.trans opens'
        exact Nat.succ_le_succ (longest longer behind follow'.left)

/-- A step reads the character at the front, or passes over a faulty piece. -/
theorem step_cases (lead : UInt8) (bytes : List UInt8) :
    ∃ bs rest, bytes = bs ++ rest ∧
      ((∃ c, String.utf8EncodeChar c = lead :: bs ∧ step lead bytes = .scalar c bs.length) ∨
        FaultyPiece (lead :: bs) rest ∧ ∃ fault, step lead bytes = .illFormed fault bs.length) := by
  cases opens : opening? lead with
  | none =>
      refine ⟨[], bytes, rfl, .inr ⟨faultyPiece_of_stray opens bytes, .invalidStart, ?_⟩⟩
      rw [step_eq, opens]
      rfl
  | some o =>
      have stepped : step lead bytes = continuation o.low o.high o.count 0 o.value bytes := by rw [step_eq, opens]
      obtain ⟨bs, rest, rfl, follow, ends⟩ := continuation_cases o.low o.high o.count 0 o.value bytes
      refine ⟨bs, rest, rfl, ?_⟩
      rcases ends with ⟨length, read⟩ | ⟨short, longest, fault, read⟩
      · exact .inl ⟨_, encoding_of_opening opens follow length, by rw [stepped, read, length, Nat.zero_add]⟩
      · refine .inr ⟨faultyPiece_of_short opens follow short longest, fault, ?_⟩
        rw [stepped, read, Nat.zero_add]

/-!
### Decoding
-/

/-- What the bytes are shown as: characters, with one replacement character for each faulty piece. -/
inductive Replaced : List UInt8 → List Char → Prop where
  | nil : Replaced [] []
  | char {c : Char} {rest : List UInt8} {cs : List Char} (further : Replaced rest cs) :
      Replaced (String.utf8EncodeChar c ++ rest) (c :: cs)
  | fault {piece rest : List UInt8} {cs : List Char} (faulty : FaultyPiece piece rest) (further : Replaced rest cs) :
      Replaced (piece ++ rest) (Char.ofNat 0xFFFD :: cs)

theorem decodeReplacing_char (c : Char) (rest : List UInt8) :
    decodeReplacing (String.utf8EncodeChar c ++ rest) = c :: decodeReplacing rest := by
  obtain ⟨lead, bs, o, encoded, -, -, -⟩ := exists_opening c
  rw [encoded, List.cons_append, decodeReplacing, step_encoding encoded rest]
  simp [Step.shown, Step.extra]

/-- A faulty piece is replaced by one U+FFFD, and decoding goes on behind it. -/
theorem decodeReplacing_fault {piece rest : List UInt8} (faulty : FaultyPiece piece rest) :
    decodeReplacing (piece ++ rest) = Char.ofNat 0xFFFD :: decodeReplacing rest := by
  obtain ⟨lead, piece, rfl⟩ := List.exists_cons_of_ne_nil faulty.nonempty
  rw [List.cons_append, decodeReplacing]
  obtain ⟨bs, rest', split, ⟨c, encoded, -⟩ | ⟨faulty', fault, stepped⟩⟩ := step_cases lead (piece ++ rest)
  · have stands : String.utf8EncodeChar c <+: lead :: piece ++ rest := by
      rw [encoded, List.cons_append, split]
      exact List.prefix_append (lead :: bs) rest'
    exact absurd stands (faulty.unread c)
  · have same : lead :: piece ++ rest = lead :: bs ++ rest' := congrArg (lead :: ·) split
    have length : piece.length = bs.length := by
      have le := faulty.length_le faulty' same
      have ge := faulty'.length_le faulty same.symm
      simp only [List.length_cons] at le ge
      omega
    rw [stepped]
    simp [Step.shown, Step.extra, ← length]

/-- The decoder shows bytes as they are to be shown. -/
theorem replaced_decodeReplacing (bytes : List UInt8) : Replaced bytes (decodeReplacing bytes) := by
  cases bytes with
  | nil =>
      rw [decodeReplacing]
      exact .nil
  | cons lead bytes =>
      obtain ⟨bs, rest, split, front⟩ := step_cases lead bytes
      have shorter : rest.length < (lead :: bytes).length := by
        rw [split, List.length_cons, List.length_append]
        omega
      have further := replaced_decodeReplacing rest
      rcases front with ⟨c, encoded, -⟩ | ⟨faulty, -⟩
      · have split : lead :: bytes = String.utf8EncodeChar c ++ rest := by rw [encoded, split, List.cons_append]
        rw [split, decodeReplacing_char]
        exact .char further
      · rw [split, ← List.cons_append, decodeReplacing_fault faulty]
        exact .fault faulty further
termination_by bytes.length

/-- There is one text that bytes are shown as, and the decoder gives it. -/
theorem replaced_iff {bytes : List UInt8} {cs : List Char} : Replaced bytes cs ↔ cs = decodeReplacing bytes := by
  constructor
  · intro replaced
    induction replaced with
    | nil => rw [decodeReplacing]
    | char _ ih => rw [decodeReplacing_char, ih]
    | fault faulty _ ih => rw [decodeReplacing_fault faulty, ih]
  · rintro rfl
    exact replaced_decodeReplacing bytes

/-- Whole characters are read as they are. -/
theorem decodeReplacing_flatMap (cs : List Char) (rest : List UInt8) :
    decodeReplacing (cs.flatMap String.utf8EncodeChar ++ rest) = cs ++ decodeReplacing rest := by
  induction cs with
  | nil => rfl
  | cons c cs ih => rw [List.flatMap_cons, List.append_assoc, decodeReplacing_char, ih, List.cons_append]

/-- Encoded text is decoded as it was. -/
theorem decodeReplacing_encoded (cs : List Char) : decodeReplacing (cs.flatMap String.utf8EncodeChar) = cs := by
  have whole := decodeReplacing_flatMap cs []
  rwa [List.append_nil, decodeReplacing, List.append_nil] at whole

/-- Bytes that may follow a first byte, but follow none, are shown one by one. -/
theorem decodeReplacing_stray {bs : List UInt8} (stray : ∀ b ∈ bs, opening? b = none) (rest : List UInt8) :
    decodeReplacing (bs ++ rest) = List.replicate bs.length (Char.ofNat 0xFFFD) ++ decodeReplacing rest := by
  induction bs with
  | nil => rfl
  | cons b bs ih =>
      have faulty := faultyPiece_of_stray (stray b List.mem_cons_self) (bs ++ rest)
      have further := ih fun b' mem => stray b' (List.mem_cons_of_mem b mem)
      have split : b :: bs ++ rest = [b] ++ (bs ++ rest) := rfl
      rw [split, decodeReplacing_fault faulty, further]
      rfl

/-- No byte of a character but its first announces one. -/
theorem opening?_of_follow {low high : Nat} (lower : 0x80 ≤ low) (upper : high ≤ 0xBF) {bs : List UInt8}
    (follow : Follow low high bs) : ∀ b ∈ bs, opening? b = none := by
  induction bs generalizing low high with
  | nil => simp
  | cons b bs ih =>
      have bounds := within_iff.1 follow.1
      intro b' mem
      rcases List.mem_cons.1 mem with rfl | mem
      · exact opening?_stray (by omega) (by omega)
      · exact ih (by decide) (by decide) follow.2 b' mem

/-- Behind whole characters bytes are decoded as if they stood alone, even if the first of these characters has lost its
    beginning. -/
theorem decodeReplacing_behind (cs : List Char) (cut : Nat) (rest : List UInt8) :
    decodeReplacing ((cs.flatMap String.utf8EncodeChar).drop cut ++ rest) =
      decodeReplacing ((cs.flatMap String.utf8EncodeChar).drop cut) ++ decodeReplacing rest := by
  have atBoundary : ∀ ds : List Char, decodeReplacing (ds.flatMap String.utf8EncodeChar ++ rest) =
      decodeReplacing (ds.flatMap String.utf8EncodeChar) ++ decodeReplacing rest := by
    intro ds
    rw [decodeReplacing_flatMap, decodeReplacing_encoded]
  induction cs generalizing cut with
  | nil => simpa using atBoundary []
  | cons c cs ih =>
      obtain ⟨lead, bs, o, encoded, opens, follow, -⟩ := exists_opening c
      cases cut with
      | zero => exact atBoundary (c :: cs)
      | succ cut =>
          -- The rest of the cut character announces nothing, and is shown byte by byte.
          obtain ⟨lower, -, upper⟩ := bounds_of_opening opens
          have stray : ∀ b ∈ bs.drop cut, opening? b = none := fun b mem =>
            opening?_of_follow lower upper follow b (List.mem_of_mem_drop mem)
          rw [List.flatMap_cons, encoded, List.cons_append, List.drop_succ_cons, List.drop_append, List.append_assoc,
            decodeReplacing_stray stray, decodeReplacing_stray stray, ih, List.append_assoc]

end Outline.Text.Utf8
