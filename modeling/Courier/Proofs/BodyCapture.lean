import Courier.Proofs.LossyText
import Courier.Proofs.Records
import Courier.Proofs.SignedRequests
set_option autoImplicit false

namespace Courier

namespace Body

namespace Transfer

def received : Transfer → List UInt8
  | .complete => []
  | .broken => []
  | .chunk bytes rest => bytes ++ rest.received

def after (chunks : List (List UInt8)) (ending : Transfer) : Transfer := chunks.foldr .chunk ending

theorem received_after (chunks : List (List UInt8)) (ending : Transfer) :
    (after chunks ending).received = chunks.flatten ++ ending.received := by
  induction chunks with
  | nil => rfl
  | cons bytes chunks ih =>
    rw [List.flatten_cons, List.append_assoc, ← ih]
    rfl

end Transfer

variable {limit : Nat} {t u : Transfer} {text : String}

theorem gather_eq (limit : Nat) (kept : List UInt8) (t : Transfer) :
    gather limit kept t = kept ++ t.received.take (limit - kept.length) := by
  induction t generalizing kept with
  | complete => simp [gather, Transfer.received]
  | broken => simp [gather, Transfer.received]
  | chunk bytes rest ih =>
    have size : (kept ++ bytes.take (limit - kept.length)).length =
        kept.length + min (limit - kept.length) bytes.length := by
      rw [List.length_append, List.length_take]
    rw [gather, Transfer.received, List.take_append, ← List.append_assoc]
    split_ifs with full
    -- reading stops where the room is used up, so that the rest would add nothing
    · rw [show limit - kept.length - bytes.length = 0 by omega, List.take_zero, List.append_nil]
    · rw [ih, size]
      congr 2
      omega

def keeps (limit : Nat) (t : Transfer) : List UInt8 := t.received.take limit

theorem capture_eq (limit : Nat) (t : Transfer) : capture limit t =
    if keeps limit t = [] then none else some (String.ofList (Text.decodeLossy (keeps limit t))) := by
  have kept : gather limit [] t = keeps limit t := gather_eq limit [] t
  unfold capture
  rw [kept]
  cases keeps limit t with
  | nil => rfl
  | cons b r => rw [if_neg (List.cons_ne_nil b r)]

theorem capture_congr (same : keeps limit u = keeps limit t) : capture limit u = capture limit t := by
  rw [capture_eq, capture_eq, same]

theorem capture_eq_none_iff : capture limit t = none ↔ keeps limit t = [] := by
  rw [capture_eq]
  split_ifs with empty <;> simp [empty]

theorem capture_eq_some_iff :
    capture limit t = some text ↔ keeps limit t ≠ [] ∧ Text.Reads (keeps limit t) text.toList := by
  rw [capture_eq, Text.reads_iff]
  split_ifs with empty
  · simp only [empty, ne_eq, not_true, false_and]
  · rw [Option.some.injEq, ← String.toList_inj, String.toList_ofList]
    exact ⟨fun same => ⟨empty, same.symm⟩, fun reads => reads.2.symm⟩

theorem keeps_length_le (limit : Nat) (t : Transfer) : (keeps limit t).length ≤ limit := by
  unfold keeps
  rw [List.length_take]
  omega

theorem Transfer.keeps_after (limit : Nat) {chunks : List (List UInt8)} (same : chunks.flatten = t.received) :
    keeps limit (after chunks .complete) = keeps limit t ∧ keeps limit (after chunks .broken) = keeps limit t := by
  constructor
  all_goals rw [keeps, received_after, received, List.append_nil, same, keeps]

/-- A text is kept exactly if there is room for a byte and one arrives, and it is the one text that these first bytes are
read as. Nothing else counts: not how the bytes come in chunks, nor what follows them, nor whether the transfer ends or
breaks. -/
theorem capture_reads_first_bytes (limit : Nat) (t : Transfer) :
    (capture limit t = none ↔ t.received.take limit = []) ∧
      (∀ text, capture limit t = some text ↔
        t.received.take limit ≠ [] ∧ Text.Reads (t.received.take limit) text.toList) ∧
      (∀ u : Transfer, u.received.take limit = t.received.take limit → capture limit u = capture limit t) ∧
      ∀ chunks : List (List UInt8), chunks.flatten = t.received →
        capture limit (.after chunks .complete) = capture limit t ∧
        capture limit (.after chunks .broken) = capture limit t := by
  refine ⟨capture_eq_none_iff, fun text => capture_eq_some_iff, fun u same => capture_congr same, fun chunks same => ?_⟩
  obtain ⟨complete, broken⟩ := Transfer.keeps_after limit same
  exact ⟨capture_congr complete, capture_congr broken⟩

namespace Sample

def accented : Transfer := .chunk [0x61, 0xC3] (.chunk [0xA9] .complete)

def noise : Transfer := .chunk [0xFF] .complete

end Sample

open Sample in
theorem capture_reads_first_bytes_accented : capture 2 accented = some "a\ufffd" ∧
    capture 2 (.chunk [0x61] (.chunk [] (.chunk [0xC3] .broken))) = capture 2 accented ∧
    capture 2 (.after [[0x61, 0xC3, 0xA9]] .complete) = capture 2 accented ∧
    capture 2 (.after [[0x61, 0xC3, 0xA9]] .broken) = capture 2 accented := by
  obtain ⟨-, text, agree, split⟩ := capture_reads_first_bytes 2 accented
  exact ⟨(text _).mpr ⟨by decide, Text.reads_iff.mpr (by decide +kernel)⟩, agree _ (by decide), split _ (by decide)⟩

/-! ### Characters -/

def whole (limit : Nat) (t : Transfer) (body : List Char) : List Char := Text.fitting (keeps limit t).length body

/-- One character of a body is kept in part. -/
def Splits (limit : Nat) (t : Transfer) (body : List Char) : Prop :=
  (Text.utf8 (whole limit t body)).length < (keeps limit t).length

instance (limit : Nat) (t : Transfer) (body : List Char) : Decidable (Splits limit t body) :=
  inferInstanceAs (Decidable (_ < _))

/-- How the text kept of a well-formed body stands to the body: it is the characters that are kept whole, and a
replacement of three bytes for one that is split. -/
structure CapturedOf (limit : Nat) (t : Transfer) (body : List Char) (text : String) : Prop where
  chars : text.toList = whole limit t body ++ if Splits limit t body then [Text.replacement] else []
  starts_iff : text.toList <+: body ↔ ¬ Splits limit t body ∨ whole limit t body ++ [Text.replacement] <+: body
  within_iff : (Text.bytes text).length ≤ limit ↔
    ¬ Splits limit t body ∨ (Text.utf8 (whole limit t body)).length + 3 ≤ limit
  excess : (Text.bytes text).length ≤ limit + 2
  /-- Where the limit is what ends the body, the text is a part of the body within it exactly if no character is split. -/
  limited_iff : limit ≤ t.received.length →
    (text.toList <+: body ∧ (Text.bytes text).length ≤ limit ↔ ¬ Splits limit t body)

structure Captured (limit : Nat) (t : Transfer) (text : String) : Prop where
  size_le : (Text.bytes text).length ≤ 3 * limit
  le_size : (keeps limit t).length ≤ (Text.bytes text).length
  exact_iff : Text.bytes text = keeps limit t ↔ ∃ s, keeps limit t = Text.utf8 s
  of_text : ∀ body, t.received <+: Text.utf8 body → CapturedOf limit t body text

section

variable {body : List Char}

theorem reads_of_text (arrives : t.received <+: Text.utf8 body) : Text.Reads (keeps limit t)
    (whole limit t body ++ if Splits limit t body then [Text.replacement] else []) := by
  have first : keeps limit t <+: t.received := List.take_prefix _ _
  have kept := first.trans arrives
  have read := Text.reads_take kept.length_le
  rwa [← List.prefix_iff_eq_take.mp kept] at read

theorem length_replacement (s : List Char) :
    (Text.utf8 (s ++ [Text.replacement])).length = (Text.utf8 s).length + 3 := by
  rw [Text.utf8_append, List.length_append]
  rfl

/-- Where the body itself goes on with a replacement, that one is not kept whole. -/
theorem lt_of_replacement_starts (starts : whole limit t body ++ [Text.replacement] <+: body) :
    (keeps limit t).length < (Text.utf8 (whole limit t body)).length + 3 := by
  obtain ⟨r, rest⟩ := starts
  rw [List.append_assoc, List.singleton_append] at rest
  exact Text.lt_of_fitting_next rest

theorem capturedOf (reads : Text.Reads (keeps limit t) text.toList) (arrives : t.received <+: Text.utf8 body) :
    CapturedOf limit t body text := by
  have chars := reads.unique (reads_of_text arrives)
  have fits : (Text.utf8 (whole limit t body)).length ≤ (keeps limit t).length := Text.utf8_fitting_le _ _
  have starts : whole limit t body <+: body := Text.fitting_starts _ _
  have room := keeps_length_le limit t
  by_cases splits : Splits limit t body
  · have part : (Text.utf8 (whole limit t body)).length < (keeps limit t).length := splits
    have marked : text.toList = whole limit t body ++ [Text.replacement] := by rw [chars, if_pos splits]
    have size : (Text.bytes text).length = (Text.utf8 (whole limit t body)).length + 3 := by
      rw [Text.bytes, marked, length_replacement]
    refine ⟨chars, ?_, ?_, by omega, fun long => ?_⟩
    · simp only [marked, splits, not_true, false_or]
    · simp only [size, splits, not_true, false_or]
    · have all : (keeps limit t).length = limit := List.length_take_of_le long
      -- a replacement that the body has there itself would not fit, and neither does its mark
      refine ⟨fun ⟨within, small⟩ => ?_, absurd splits⟩
      have long' := lt_of_replacement_starts (marked ▸ within)
      omega
  · have unmarked : text.toList = whole limit t body := by rw [chars, if_neg splits, List.append_nil]
    have size : (Text.bytes text).length ≤ limit := by
      rw [Text.bytes, unmarked]
      omega
    exact ⟨chars, by simp only [unmarked, starts, splits, not_false_eq_true, true_or],
      by simp only [size, splits, not_false_eq_true, true_or], by omega,
      fun _ => ⟨fun _ => splits, fun _ => ⟨unmarked ▸ starts, size⟩⟩⟩

theorem captured (kept : capture limit t = some text) : Captured limit t text := by
  obtain ⟨-, reads⟩ := capture_eq_some_iff.mp kept
  have room := keeps_length_le limit t
  refine ⟨?_, reads.le_size, ⟨fun same => ⟨_, same.symm⟩, ?_⟩, fun body arrives => capturedOf reads arrives⟩
  · have size : (Text.bytes text).length ≤ 3 * (keeps limit t).length := reads.size_le
    omega
  · rintro ⟨s, same⟩
    rw [same] at reads
    rw [Text.bytes, reads.unique (.of_utf8 s), same]

end

end Body

theorem Change.afterAttempt_responseBody {before : Word32} {o : Outcome} {p : RetryPolicy} {now : Instant} {c : Change}
    (counted : afterAttempt before o p now = .ok c) : c.responseBody = some o.responseBody := by
  obtain ⟨n, -, ⟨-, rfl⟩ | ⟨-, -, due, rfl⟩ | ⟨-, rfl⟩⟩ := afterAttempt_ok counted
  all_goals rfl

namespace Sender

/-- A body is kept of responses only, as a text that stands so to what arrives, and the change after the attempt writes
that text. -/
theorem responseBody_captured (s : Sender) {x : Exchange} {text : String}
    (kept : (s.outcome x).responseBody = some text) :
    (∃ (code : Nat) (t : Body.Transfer) (h : code < 65536), x = .answered code t h ∧
      Body.Captured s.responseBodyLimit t text) ∧
    ∀ (before : Word32) (p : RetryPolicy) (now : Instant) (c : Change),
      Change.afterAttempt before (s.outcome x) p now = .ok c → c.responseBody = some (some text) := by
  refine ⟨?_, fun before p now c counted => ?_⟩
  · cases x with
    | answered code t h => exact ⟨code, t, h, rfl, Body.captured kept⟩
    | _ => cases kept
  · rw [Change.afterAttempt_responseBody counted, kept]

namespace Sample

def keeping (limit : Nat) : Sender := { named "x-webhook-signature" with responseBodyLimit := limit }

def answer (t : Body.Transfer) : Exchange := .answered 200 t Fleet.Sample.thanks_in_range

end Sample

open Sample Body.Sample

theorem responseBody_captured_accented :
    ((keeping 2).outcome (answer accented)).responseBody = some "a\ufffd" ∧
      Body.CapturedOf 2 accented ['a', 'é'] "a\ufffd" ∧
      ∃ c, Change.afterAttempt (.ofNat 0) ((keeping 2).outcome (answer accented)) .standard .first = .ok c ∧
        c.responseBody = some (some "a\ufffd") := by
  have kept : ((keeping 2).outcome (answer accented)).responseBody = some "a\ufffd" := by decide +kernel
  obtain ⟨⟨code, t, h, same, captured⟩, stored⟩ := responseBody_captured (keeping 2) kept
  obtain ⟨rfl, rfl⟩ := Exchange.answered.inj same
  obtain ⟨c, counted⟩ : ∃ c, Change.afterAttempt (.ofNat 0) ((keeping 2).outcome (answer accented)) .standard .first =
    .ok c := ⟨_, rfl⟩
  exact ⟨kept, captured.of_text _ (by decide +kernel), c, counted, stored _ _ _ _ counted⟩

/-- Two bytes are kept of three, and one of one; the texts have four bytes and three, and the first is no part of its
body. -/
theorem responseBody_exceeds :
    (((keeping 2).outcome (answer accented)).responseBody = some "a\ufffd" ∧
      accented.received = Text.utf8 ['a', 'é'] ∧ (Text.bytes "a\ufffd").length = 4 ∧
      ¬ "a\ufffd".toList <+: ['a', 'é']) ∧
    ((keeping 1).outcome (answer noise)).responseBody = some "\ufffd" ∧ (Text.bytes "\ufffd").length = 3 := by
  decide +kernel

end Sender

end Courier
