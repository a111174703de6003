import SimplexAgent.Hub.JsonParse
import SimplexAgent.Verified.Segments

/-!
# The sequence number of an event

`parseEventEnvelope` and `readUnsignedInteger` of `protocol/events.ts`, and `trackSequence` of
`worker/connection.ts`. A sequence that is not a safe integer was rounded when the message was
read, and is read again from the text of the message, by a pattern.

The pattern takes the first place in the text that looks like the member (`search_iff`). That
need not be the member of the envelope: the members of the body come before it.
-/

namespace SimplexAgent.Hub.Js

open Verified.Rounding

open Verified Verified.Segments

/-! ## The pattern -/

/-- `\s`. -/
def isSpace (u : UInt16) : Bool :=
  (9 ≤ u.toNat && u.toNat ≤ 13) || (0x2000 ≤ u.toNat && u.toNat ≤ 0x200a) ||
    u.toNat ∈ [0x20, 0xa0, 0x1680, 0x2028, 0x2029, 0x202f, 0x205f, 0x3000, 0xfeff]

def quoted (field : Text) : Text := 0x22 :: field ++ [0x22]

/-- The digits that the pattern finds at the front of a text. -/
def matchAt (field : Text) (s : Text) : Option Text :=
  if (quoted field).isPrefixOf s then
    match (s.drop (quoted field).length).dropWhile isSpace with
    | u :: rest =>
      if u = 0x3a ∧ ((rest.dropWhile isSpace).takeWhile isDigit).isEmpty = false then
        some ((rest.dropWhile isSpace).takeWhile isDigit)
      else none
    | [] => none
  else none

/-- `exec` of the pattern: the first match. -/
def search (field : Text) : Text → Option Text
  | [] => matchAt field []
  | u :: rest =>
    match matchAt field (u :: rest) with
    | some digits => some digits
    | none => search field rest

/-! ## Reading the envelope -/

/-- What is shown for a number. -/
inductive Display where
  | null
  | number (value : Nat)
  | text (raw : Text)

structure UnsignedInteger where
  value : Option Nat
  safe : Bool
  display : Display

def UnsignedInteger.unusable : UnsignedInteger := ⟨none, false, .null⟩

def readDigits (digits : Text) : UnsignedInteger :=
  if 20 < digits.length then .unusable
  else if 2 ^ 64 ≤ digitsValue digits then .unusable
  else {
    value := some (digitsValue digits)
    safe := decide (digitsValue digits < 2 ^ 53)
    display := if digitsValue digits < 2 ^ 53 then .number (digitsValue digits) else .text digits }

/-- `readUnsignedInteger`. -/
def readUnsignedInteger (parsed : Option (Value Literal)) (rawText field : Text) :
    UnsignedInteger :=
  match parsed with
  | some (.num literal) =>
    match toDouble literal.value with
    | .infinite _ => .unusable
    | .finite x =>
      if x.den = 1 ∧ 0 ≤ x then
        if x < (2 ^ 53 : Nat) then ⟨some x.num.toNat, true, .number x.num.toNat⟩
        else
          match search field rawText with
          | some digits => readDigits digits
          | none => .unusable
      else .unusable
  | some (.str raw) =>
    if raw.isEmpty = false ∧ raw.all isDigit = true then readDigits raw else .unusable
  | _ => .unusable

def member (members : List (Text × Value Literal)) (key : String) : Option (Value Literal) :=
  members.lookup (text key)

def string? (value : Option (Value Literal)) : Option Text :=
  match value with
  | some (.str s) => some s
  | _ => none

/-- `SESSION_ID`. -/
def isValidSessionId (id : Text) : Bool :=
  decide (1 ≤ id.length ∧ id.length ≤ 128) && id.all fun u =>
    isDigit u || (0x41 ≤ u.toNat && u.toNat ≤ 0x5a) || (0x61 ≤ u.toNat && u.toNat ≤ 0x7a) ||
      u == 0x5f || u == 0x2d

/-- What is read of a message: its members and its sequence number. -/
structure Envelope where
  members : List (Text × Value Literal)
  sequence : UnsignedInteger

/-- `parseEventEnvelope`, as far as it accepts. -/
def parseEventEnvelope (s : Text) : Option Envelope :=
  match parse s with
  | some (.obj members) =>
    if string? (member members "type") = some (text "event") ∧
        (string? (member members "event")).any (·.isEmpty = false) = true ∧
        (["event", "worker_id", "request_id", "run_id"].all fun field =>
          (string? (member members field)).all (Utf16.byteLength · ≤ 128)) = true ∧
        (string? (member members "worker_id")).any (·.isEmpty = false) = true ∧
        (string? (member members "session_id")).any isValidSessionId = true then
      some {
        members := members
        sequence := readUnsignedInteger (member members "sequence") s (text "sequence") }
    else none
  | _ => none

/-! ## Tracking -/

/-- The counters of a connection. -/
structure Tracked where
  lastSequence : Option Nat
  duplicates : Nat
  gaps : Nat
  deriving DecidableEq

/-- `trackSequence`. -/
def trackSequence (tracked : Tracked) (sequence : UnsignedInteger) : Tracked :=
  match sequence.value with
  | none => tracked
  | some value =>
    match tracked.lastSequence with
    | none => { tracked with lastSequence := some value }
    | some last =>
      if value ≤ last then { tracked with duplicates := tracked.duplicates + 1 }
      else {
        lastSequence := some value
        duplicates := tracked.duplicates
        gaps := tracked.gaps + (value - last - 1) }

/-! ## Where the pattern is found -/

/-- A text that starts like the member, with these digits. -/
def SpelledAt (field digits s : Text) : Prop :=
  ∃ spaces spaces' rest, s = quoted field ++ spaces ++ 0x3a :: spaces' ++ digits ++ rest ∧
    (∀ u ∈ spaces, isSpace u = true) ∧ (∀ u ∈ spaces', isSpace u = true) ∧
    (∀ u ∈ digits, isDigit u = true) ∧ digits ≠ [] ∧
    ∀ u, rest.head? = some u → isDigit u = false

def FirstSpelled (field digits s : Text) : Prop :=
  ∃ before after, s = before ++ after ∧ SpelledAt field digits after ∧
    ∀ n, n < before.length → ∀ other, ¬SpelledAt field other (s.drop n)

theorem not_isDigit_of_isSpace {u : UInt16} (h : isSpace u = true) : isDigit u = false := by
  simp only [isSpace, isDigit, Bool.or_eq_true, Bool.and_eq_true, decide_eq_true_eq,
    List.mem_cons, List.not_mem_nil, or_false, Bool.and_eq_false_iff,
    decide_eq_false_iff_not] at h ⊢
  omega

theorem matchAt_iff (field digits s : Text) :
    matchAt field s = some digits ↔ SpelledAt field digits s := by
  constructor
  · intro h
    unfold matchAt at h
    split at h
    · rename_i hQuoted
      obtain ⟨tail, rfl⟩ := List.isPrefixOf_iff_prefix.mp hQuoted
      rw [List.drop_left] at h
      split at h
      · rename_i u rest hColon
        split at h
        · rename_i hDigits
          obtain ⟨rfl, hSome⟩ := hDigits
          rw [Option.some.injEq] at h
          subst h
          refine ⟨tail.takeWhile isSpace, rest.takeWhile isSpace,
            (rest.dropWhile isSpace).dropWhile isDigit, ?_, ?_, ?_, ?_, ?_, ?_⟩
          · have hTail := List.takeWhile_append_dropWhile (p := isSpace) (l := tail)
            have hRest := List.takeWhile_append_dropWhile (p := isSpace) (l := rest)
            have hRun := List.takeWhile_append_dropWhile (p := isDigit)
              (l := rest.dropWhile isSpace)
            conv => lhs; rw [← hTail, hColon, ← hRest, ← hRun]
            simp only [List.append_assoc, List.cons_append]
          · exact fun u hMem => List.mem_takeWhile_imp hMem
          · exact fun u hMem => List.mem_takeWhile_imp hMem
          · exact fun u hMem => List.mem_takeWhile_imp hMem
          · exact List.isEmpty_eq_false_iff.mp hSome
          · intro u hHead
            have hStop := List.head?_dropWhile_not isDigit (rest.dropWhile isSpace)
            rw [hHead] at hStop
            exact hStop
        · cases h
      · cases h
    · cases h
  · rintro ⟨spaces, spaces', rest, rfl, hSpaces, hSpaces', hDigits, hSome, hRest⟩
    have hColon := span_front (0x3a :: (spaces' ++ digits ++ rest)) hSpaces (by
      intro u hHead
      rw [List.head?_cons, Option.some.injEq] at hHead
      rw [← hHead]
      decide)
    have hBlank := span_front (digits ++ rest) hSpaces' (by
      intro u hHead
      rw [List.head?_append_of_ne_nil _ hSome] at hHead
      have hDigit := hDigits u (List.mem_of_head? hHead)
      cases hSpace : isSpace u with
      | false => rfl
      | true =>
        rw [not_isDigit_of_isSpace hSpace] at hDigit
        cases hDigit)
    have hRun := span_front rest hDigits hRest
    have hQuoted : quoted field <+: quoted field ++ spaces ++ 0x3a :: spaces' ++ digits ++ rest :=
      ⟨spaces ++ 0x3a :: spaces' ++ digits ++ rest, by simp only [List.append_assoc]⟩
    unfold matchAt
    rw [if_pos (List.isPrefixOf_iff_prefix.mpr hQuoted)]
    have hDrop : (quoted field ++ spaces ++ 0x3a :: spaces' ++ digits ++ rest).drop
        (quoted field).length = spaces ++ 0x3a :: (spaces' ++ digits ++ rest) := by
      simp only [List.append_assoc, List.cons_append, List.drop_left]
    rw [hDrop, hColon.2]
    dsimp only
    rw [List.append_assoc, hBlank.2, hRun.1, if_pos ⟨rfl, List.isEmpty_eq_false_iff.mpr hSome⟩]

theorem search_iff (field digits s : Text) :
    search field s = some digits ↔ FirstSpelled field digits s := by
  induction s with
  | nil =>
    rw [search, matchAt_iff]
    constructor
    · exact fun h => ⟨[], [], rfl, h, fun n hn => absurd hn (Nat.not_lt_zero _)⟩
    · rintro ⟨before, after, hSplit, h, -⟩
      rw [(List.append_eq_nil_iff.mp hSplit.symm).2] at h
      exact h
  | cons u rest ih =>
    rw [search]
    cases hHere : matchAt field (u :: rest) with
    | some found =>
      rw [matchAt_iff] at hHere
      simp only [Option.some.injEq]
      constructor
      · rintro rfl
        exact ⟨[], u :: rest, rfl, hHere, fun n hn => absurd hn (Nat.not_lt_zero _)⟩
      · rintro ⟨before, after, hSplit, h, hFirst⟩
        cases before with
        | cons b before => exact absurd hHere (hFirst 0 (Nat.succ_pos _) found)
        | nil =>
          rw [List.nil_append] at hSplit
          rw [← hSplit, ← matchAt_iff] at h
          rw [← matchAt_iff, h, Option.some.injEq] at hHere
          exact hHere.symm
    | none =>
      have hNot : ∀ other, ¬SpelledAt field other (u :: rest) := by
        intro other h
        rw [← matchAt_iff, hHere] at h
        cases h
      simp only
      rw [ih]
      constructor
      · rintro ⟨before, after, rfl, h, hFirst⟩
        refine ⟨u :: before, after, rfl, h, ?_⟩
        intro n hn
        cases n with
        | zero => exact hNot
        | succ n => exact hFirst n (Nat.lt_of_succ_lt_succ hn)
      · rintro ⟨before, after, hSplit, h, hFirst⟩
        cases before with
        | nil =>
          rw [List.nil_append] at hSplit
          exact absurd (hSplit ▸ h) (hNot digits)
        | cons b before =>
          rw [List.cons_append, List.cons.injEq] at hSplit
          refine ⟨before, after, hSplit.2, h, fun n hn other => ?_⟩
          exact hFirst (n + 1) (Nat.succ_lt_succ hn) other

/-! ## Which sequence numbers are right -/

/-- The first place in a message that looks like its sequence has a number in at most 20
digits. -/
def Spelled (s : Text) (n : Nat) : Prop :=
  ∃ digits, FirstSpelled (text "sequence") digits s ∧ digits.length ≤ 20 ∧ digitsValue digits = n

theorem readDigits_value {digits : Text} {n : Nat} (h : n < 2 ^ 64) :
    (readDigits digits).value = some n ↔ digits.length ≤ 20 ∧ digitsValue digits = n := by
  unfold readDigits
  by_cases hMany : 20 < digits.length
  · rw [if_pos hMany]
    constructor
    · intro hNone
      cases hNone
    · rintro ⟨hFew, -⟩
      omega
  · rw [if_neg hMany]
    by_cases hLarge : 2 ^ 64 ≤ digitsValue digits
    · rw [if_pos hLarge]
      constructor
      · intro hNone
        cases hNone
      · rintro ⟨-, rfl⟩
        omega
    · rw [if_neg hLarge, Option.some.injEq]
      exact ⟨fun hValue => ⟨Nat.not_lt.mp hMany, hValue⟩, And.right⟩

theorem readUnsignedInteger_finite {literal : Literal} {m : Nat} (s field : Text)
    (hRead : toDouble literal.value = .finite m) :
    readUnsignedInteger (some (.num literal)) s field =
      if m < 2 ^ 53 then ⟨some m, true, .number m⟩
      else
        match search field s with
        | some digits => readDigits digits
        | none => .unusable := by
  have hInteger : (m : Rat).den = 1 ∧ 0 ≤ (m : Rat) := ⟨Rat.den_natCast m, Nat.cast_nonneg m⟩
  have hSafe : ((m : Rat) < ((2 ^ 53 : Nat) : Rat)) = (m < 2 ^ 53) :=
    propext Nat.cast_lt
  unfold readUnsignedInteger
  simp only [hRead, if_pos hInteger, hSafe, Rat.num_natCast, Int.toNat_natCast]

theorem readUnsignedInteger_iff {literal : Literal} {n : Nat} (s : Text)
    (hValue : literal.value = n) (hBound : n < 2 ^ 64) :
    (readUnsignedInteger (some (.num literal)) s (text "sequence")).value = some n ↔
      n < 2 ^ 53 ∨ Spelled s n := by
  by_cases hSafe : n < 2 ^ 53
  · have hRead : toDouble literal.value = .finite n := by
      rw [hValue]
      exact toDouble_natCast (roundMagnitude_safe hSafe) (Nat.le_of_lt hBound)
    rw [readUnsignedInteger_finite s _ hRead, if_pos hSafe]
    exact iff_of_true rfl (.inl hSafe)
  · obtain ⟨m, hRound, hLarge, hMost⟩ := roundMagnitude_large (Nat.not_lt.mp hSafe) hBound
    have hRead : toDouble literal.value = .finite m := by
      rw [hValue]
      exact toDouble_natCast hRound hMost
    rw [readUnsignedInteger_finite s _ hRead, if_neg (Nat.not_lt.mpr hLarge)]
    simp only [hSafe, false_or]
    unfold Spelled
    cases hSearch : search (text "sequence") s with
    | some digits =>
      rw [search_iff] at hSearch
      simp only [readDigits_value hBound]
      constructor
      · exact fun h => ⟨digits, hSearch, h⟩
      · rintro ⟨other, hOther, h⟩
        rw [← search_iff] at hSearch hOther
        rw [hSearch, Option.some.injEq] at hOther
        rwa [hOther]
    | none =>
      constructor
      · intro h
        cases h
      · rintro ⟨other, hOther, -⟩
        rw [← search_iff, hSearch] at hOther
        cases hOther

theorem parseEventEnvelope_sequence {s : Text} {envelope : Envelope}
    (h : parseEventEnvelope s = some envelope) : envelope.sequence =
      readUnsignedInteger (member envelope.members "sequence") s (text "sequence") := by
  unfold parseEventEnvelope at h
  split at h
  · split at h
    · rw [Option.some.injEq] at h
      rw [← h]
    · cases h
  · cases h

theorem lastSequence_trackSequence (tracked : Tracked) {sequence : UnsignedInteger} {n : Nat}
    (h : sequence.value = some n) : (trackSequence tracked sequence).lastSequence =
      some (max n (tracked.lastSequence.getD n)) := by
  unfold trackSequence
  rw [h]
  cases hLast : tracked.lastSequence with
  | none => simp
  | some last =>
    by_cases hOld : n ≤ last
    · simp only [if_pos hOld, Option.getD_some, Nat.max_eq_right hOld]
    · simp only [if_neg hOld, Option.getD_some, Nat.max_eq_left (Nat.le_of_lt (not_le.mp hOld))]

/--
**Which sequence numbers are read as they are.** Of an accepted message whose sequence is an
integer below `2 ^ 64`, the value that is read is that integer exactly if it is below `2 ^ 53`, or
if the first place in the text that looks like the member has it in at most 20 digits. Then it is
also what tracking goes by.
-/
theorem sequence_iff {s : Text} {envelope : Envelope} {literal : Literal} {n : Nat}
    (hAccepted : parseEventEnvelope s = some envelope)
    (hSequence : member envelope.members "sequence" = some (.num literal))
    (hValue : literal.value = n) (hBound : n < 2 ^ 64) :
    (envelope.sequence.value = some n ↔ n < 2 ^ 53 ∨ Spelled s n) ∧
      (n < 2 ^ 53 ∨ Spelled s n → ∀ tracked,
        (trackSequence tracked envelope.sequence).lastSequence =
          some (max n (tracked.lastSequence.getD n))) := by
  have hRead : envelope.sequence.value = some n ↔ n < 2 ^ 53 ∨ Spelled s n := by
    rw [parseEventEnvelope_sequence hAccepted, hSequence]
    exact readUnsignedInteger_iff s hValue hBound
  exact ⟨hRead, fun h tracked => lastSequence_trackSequence tracked (hRead.mpr h)⟩

/-! ### A number in the body -/

def statusMessage (body : String) : Text :=
  text ("\x7b\"data\":" ++ body ++ ",\"event\":\"status\",\"request_id\":\"\",\"run_id\":\"\"," ++
    "\"sequence\":9007199254740993,\"session_id\":\"s\",\"type\":\"event\",\"worker_id\":\"w\"\x7d")

/-- The number of a member, as it is written. -/
def literalOf (value : Option (Value Literal)) : Option (Bool × Nat × Int) :=
  match value with
  | some (.num literal) => some (literal.negative, literal.mantissa, literal.exponent)
  | _ => none

theorem eq_of_literalOf {value : Option (Value Literal)} {negative : Bool} {mantissa : Nat}
    {exponent : Int} (h : literalOf value = some (negative, mantissa, exponent)) :
    value = some (.num ⟨negative, mantissa, exponent⟩) := by
  unfold literalOf at h
  split at h
  · rw [Option.some.injEq, Prod.mk.injEq, Prod.mk.injEq] at h
    obtain ⟨rfl, rfl, rfl⟩ := h
    rfl
  · cases h

/-- Without another member of the name the sequence is read as it is. -/
theorem sequence_iff_empty_body :
    ∃ envelope, parseEventEnvelope (statusMessage "[]") = some envelope ∧
      envelope.sequence.value = some 9007199254740993 := by
  have hParsed : (parseEventEnvelope (statusMessage "[]")).map (fun envelope =>
      literalOf (member envelope.members "sequence")) =
        some (some (false, 9007199254740993, 0)) := by decide +kernel
  have hSearch : search (text "sequence") (statusMessage "[]") =
      some (text "9007199254740993") := by decide +kernel
  obtain ⟨envelope, hAccepted, hLiteral⟩ := Option.map_eq_some_iff.mp hParsed
  have hValue : (Literal.mk false 9007199254740993 0).value = ((9007199254740993 : Nat) : Rat) := by
    simp [Literal.value, scale]
  refine ⟨envelope, hAccepted,
    (sequence_iff hAccepted (eq_of_literalOf hLiteral) hValue (by norm_num)).1.mpr (.inr ?_)⟩
  exact ⟨_, (search_iff _ _ _).mp hSearch, by decide +kernel, by decide +kernel⟩

/-- The sequence that is read is the one of the body, which comes first. -/
theorem body_sequence_read :
    (parseEventEnvelope (statusMessage "\x7b\"sequence\":7\x7d")).map (fun envelope =>
      (literalOf (member envelope.members "sequence"), envelope.sequence.value)) =
        some (some (false, 9007199254740993, 0), some 7) := by
  decide +kernel

end SimplexAgent.Hub.Js
