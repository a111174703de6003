import Mathlib.Data.List.DropRight
import SimplexAgent.Dataclass.Json
import SimplexAgent.Verified.PosixShell

/-!
# Commands that run without confirmation

`tools::intrinsic::CommandPolicy`. A command is split into parts by a scanner that
knows only quotes and the three operators between commands, and each part is matched
as a whole against the operator's rules. The scanner stands between the model and an
unattended shell, so it is measured against the token recognition of the shell itself
(`Verified.PosixShell`): what it accepts is read by the shell as the same commands.

Regular expressions are a parameter: compilation and full matching, which may also
fail with an exception.
-/

namespace SimplexAgent.Tools.Process

open Dataclass Verified

abbrev Bytes := List UInt8

/-! ## Splitting a command -/

def kMaxCommandBytes : Nat := 4096
def kMaxSegments : Nat := 16
def kMaxRules : Nat := 32
def kMaxPatternBytes : Nat := 1024

/-- `trim`: without the blanks at both ends. -/
def trim (value : Bytes) : Bytes :=
  (value.dropWhile PosixShell.isBlank).rdropWhile PosixShell.isBlank

/-- The characters that are refused even inside quotes. -/
def isRefused (c : UInt8) : Bool :=
  (c < 32 && c != 9) || c == 127 || c == 36 || c == 96 || c == 92

/-- `;<>()[]{}*?~#!=`. -/
def unquotedRefused : Bytes := [59, 60, 62, 40, 41, 91, 93, 123, 125, 42, 63, 126, 35, 33, 61]

/-- The loop of `segments`: the parts so far, the quote that is open, the text from `start`
up to here, and what is to come. -/
def scan (result : List Bytes) (quote : Option UInt8) (text : Bytes) : Bytes → List Bytes
  | [] => if quote ≠ none ∨ trim text = [] then [] else result ++ [trim text]
  | c :: rest =>
    if isRefused c then []
    else
      match quote with
      | some q => scan result (if c = q then none else some q) (text ++ [c]) rest
      | none =>
        if c = 39 ∨ c = 34 then scan result (some c) (text ++ [c]) rest
        else if c ∈ unquotedRefused then []
        else if c ≠ 124 ∧ c ≠ 38 then scan result none (text ++ [c]) rest
        else if trim text = [] then []
        else if kMaxSegments ≤ (result ++ [trim text]).length then []
        else if c = 38 then
          match rest with
          | [] => []
          | d :: rest => if d = 38 then scan (result ++ [trim text]) none [] rest else []
        else
          match rest with
          | [] => scan (result ++ [trim text]) none [] []
          | d :: rest =>
            if d = 124 then scan (result ++ [trim text]) none [] rest
            else scan (result ++ [trim text]) none [] (d :: rest)

/-- `segments`. -/
def segments (command : Bytes) : List Bytes := scan [] none [] command

/-! ## Policies -/

inductive PolicyMode where
  | strict
  | readonly
  | permissive
  deriving DecidableEq

/-- `CommandPolicy::Decision`. -/
inductive Decision where
  | confirm
  | readonly
  | trustedWrite
  deriving DecidableEq

structure CommandPolicy (ρ : Type) where
  mode : PolicyMode := .strict
  readonly : List ρ := []
  trusted : List ρ := []

namespace CommandPolicy

variable {ρ : Type}

def rule (compile : String → Option ρ) (key : String) (i : Nat) : Json → Except String ρ
  | .str pattern =>
    if pattern.isEmpty ∨ kMaxPatternBytes < pattern.utf8ByteSize ∨
        pattern.toList.contains (Char.ofNat 0) then
      .error (key ++ "/" ++ toString i ++ " must contain 1..1024 bytes without NUL")
    else
      match compile pattern with
      | some expression => .ok expression
      | none => .error (key ++ "/" ++ toString i ++ " is not a valid POSIX extended regex")
  | _ => .error (key ++ "/" ++ toString i ++ " must be a regex string")

/-- `rules`. -/
def rules (compile : String → Option ρ) (config : Json) (key : String) :
    Except String (List ρ) :=
  match config.find? key with
  | none => .ok []
  | some (.arr items) =>
    if kMaxRules < items.length then
      .error (key ++ " must be an array of at most 32 regexes")
    else items.zipIdx.mapM fun (value, i) => rule compile key i value
  | some _ => .error (key ++ " must be an array of at most 32 regexes")

def readMode (config : Json) : Except String PolicyMode :=
  match config.find? "mode" with
  | none => .ok .strict
  | some (.str "readonly") => .ok .readonly
  | some (.str "permissive") => .ok .permissive
  | some (.str "strict") => .ok .strict
  | some _ => .error "mode must be strict, readonly or permissive"

def construct (compile : String → Option ρ) (config : Json) : Except String (CommandPolicy ρ) :=
  match config with
  | .obj fields => do
    if fields.any fun (key, _) => key ≠ "mode" ∧ key ≠ "readonly_rules" ∧ key ≠ "trusted_rules"
    then throw "unknown bypass configuration field"
    let mode ← readMode config
    let readonly ← rules compile config "readonly_rules"
    let trusted ← rules compile config "trusted_rules"
    return { mode := mode, readonly := readonly, trusted := trusted }
  | _ => .error "must be a mapping"

/-- `matches`: one of the expressions does; `none` is an exception of the matcher. -/
def matchesAny (regexMatch : ρ → Bytes → Option Bool) (command : Bytes) :
    List ρ → Option Bool
  | [] => some false
  | expression :: expressions =>
    match regexMatch expression command with
    | none => none
    | some true => some true
    | some false => matchesAny regexMatch command expressions

/-- The loop of `classify` over the parts. -/
def classifyParts (policy : CommandPolicy ρ) (regexMatch : ρ → Bytes → Option Bool)
    (decision : Decision) : List Bytes → Decision
  | [] => decision
  | part :: parts =>
    match matchesAny regexMatch part policy.readonly with
    | none => .confirm
    | some true => policy.classifyParts regexMatch decision parts
    | some false =>
      if policy.mode ≠ .permissive then .confirm
      else
        match matchesAny regexMatch part policy.trusted with
        | some true => policy.classifyParts regexMatch .trustedWrite parts
        | _ => .confirm

/-- `CommandPolicy::classify`. -/
def classify (policy : CommandPolicy ρ) (regexMatch : ρ → Bytes → Option Bool)
    (command : Bytes) : Decision :=
  if policy.mode = .strict ∨ command = [] ∨ kMaxCommandBytes < command.length then .confirm
  else
    match segments command with
    | [] => .confirm
    | part :: parts => policy.classifyParts regexMatch .readonly (part :: parts)

end CommandPolicy

/-! ## The scanner and the shell -/

open PosixShell (Reading Joiner Word)

def read (text : Bytes) : Reading := text.foldl Reading.step {}

def quoteOf : PosixShell.Mode → Option UInt8
  | .single _ => some 39
  | .double _ => some 34
  | .base | .comment _ => none

variable (text : Bytes) {r : Reading}

theorem read_active : (read text).Active :=
  Reading.foldl_active (by intro body hBody; cases hBody) text

theorem read_append (c : UInt8) : read (text ++ [c]) = (read text).step c := by
  unfold read
  rw [List.foldl_append, List.foldl_cons, List.foldl_nil]

theorem trim_eq_nil : trim text = [] ↔ ∀ c ∈ text, PosixShell.isBlank c = true := by
  unfold trim
  rw [List.rdropWhile_eq_nil_iff]
  constructor
  · intro h c hc
    rcases List.mem_append.mp (List.takeWhile_append_dropWhile ▸ hc :
      c ∈ text.takeWhile PosixShell.isBlank ++ text.dropWhile PosixShell.isBlank) with hIn | hIn
    · exact List.mem_takeWhile_imp hIn
    · exact h c hIn
  · intro h c hc
    exact h c (List.dropWhile_sublist _ |>.subset hc)

/-- The scanner finds a part empty exactly when the shell finds no word in it. -/
theorem trim_eq_nil_iff : trim text = [] ↔ (read text).mode = .base ∧ (read text).all = [] := by
  have hActive : Reading.Active {} := by
    intro body hBody
    cases hBody
  unfold read
  rw [trim_eq_nil, Reading.foldl_all_eq_nil hActive]
  simp [Reading.all, PosixShell.flush]

theorem trim_spec : ∃ before after, text = before ++ trim text ++ after ∧
    (∀ c ∈ before, PosixShell.isBlank c = true) ∧ ∀ c ∈ after, PosixShell.isBlank c = true := by
  refine ⟨text.takeWhile PosixShell.isBlank,
    (text.dropWhile PosixShell.isBlank).rtakeWhile PosixShell.isBlank, ?_, ?_, ?_⟩
  · unfold trim
    rw [List.append_assoc, List.rdropWhile_append_rtakeWhile, List.takeWhile_append_dropWhile]
  · intro c hc
    exact List.mem_takeWhile_imp hc
  · intro c hc
    exact List.mem_rtakeWhile_imp hc

theorem isRefused_special {c : UInt8} (h : isRefused c = false) :
    PosixShell.isSpecial c = false := by
  by_contra hSpecial
  simp only [PosixShell.isSpecial, Bool.not_eq_false, Bool.or_eq_true, beq_iff_eq] at hSpecial
  rcases hSpecial with ((rfl | rfl) | rfl) | rfl <;> revert h <;> decide

/-! ### One character -/

/-- The characters that both read on. -/
theorem scan_ordinary (hActive : r.Active) {c : UInt8} (hRefused : isRefused c = false)
    (hOrdinary : r.Ordinary c) (hUnquoted : r.mode = .base → c ∉ unquotedRefused)
    (result : List Bytes) (text rest : Bytes) : scan result (quoteOf r.mode) text (c :: rest) =
      scan result (quoteOf (r.step c).mode) (text ++ [c]) rest := by
  rw [scan.eq_def]
  dsimp only
  rw [if_neg (ne_true_of_eq_false hRefused)]
  unfold Reading.step
  unfold Reading.Ordinary at hOrdinary
  split at hOrdinary
  next hMode =>
    obtain ⟨-, -, -, -, hOperator, -⟩ := hOrdinary
    have hNoOperator : c ≠ 124 ∧ c ≠ 38 := by
      constructor <;> rintro rfl <;> revert hOperator <;> decide
    rw [hMode]
    dsimp only [quoteOf]
    by_cases hQuote : c = 39
    · subst hQuote
      rfl
    · by_cases hDouble : c = 34
      · subst hDouble
        rfl
      · rw [if_neg (not_or.mpr ⟨hQuote, hDouble⟩), if_neg (hUnquoted hMode), if_pos hNoOperator]
        rw [if_neg (show ¬c = PosixShell.quote from hQuote),
          if_neg (show ¬c = PosixShell.doubleQuote from hDouble)]
        split_ifs <;> rfl
  next body hMode =>
    rw [hMode]
    dsimp only [quoteOf]
    by_cases hQuote : c = 39
    · subst hQuote
      rfl
    · rw [if_neg hQuote, if_neg (show ¬c = PosixShell.quote from hQuote)]
  next body hMode =>
    rw [hMode]
    dsimp only [quoteOf]
    by_cases hDouble : c = 34
    · subst hDouble
      rfl
    · rw [if_neg hDouble, if_neg (show ¬c = PosixShell.doubleQuote from hDouble)]
  next body hMode => exact absurd hMode (hActive body)

/-- An operator between commands. -/
theorem scan_joiner {text rest rest' : Bytes} (h : Joiner rest rest') (result : List Bytes) :
    scan result none text rest =
      if trim text = [] then []
      else if kMaxSegments ≤ (result ++ [trim text]).length then []
      else scan (result ++ [trim text]) none [] rest' := by
  cases h with
  | or | and =>
    rw [scan.eq_def]
    rfl
  | pipe _ hHead =>
    rw [scan.eq_def]
    dsimp only
    rw [if_neg (by decide), if_neg (by decide), if_neg (by decide), if_neg (by decide)]
    cases rest' with
    | nil => rfl
    | cons d rest =>
      have hNe : d ≠ 124 := fun hEq => hHead (by rw [hEq]; rfl)
      dsimp only
      rw [if_neg hNe]
      rfl

theorem scan_cons_inv (hActive : r.Active) {c : UInt8} {result : List Bytes} {text rest : Bytes}
    (h : scan result (quoteOf r.mode) text (c :: rest) ≠ []) : isRefused c = false ∧
      ((r.Ordinary c ∧ (r.mode = .base → c ∉ unquotedRefused)) ∨
        (r.mode = .base ∧ ∃ rest', Joiner (c :: rest) rest')) := by
  rw [scan.eq_def] at h
  dsimp only at h
  by_cases hRefused : isRefused c = true
  · rw [if_pos hRefused] at h
    exact absurd rfl h
  rw [if_neg hRefused] at h
  have hRefusedFalse : isRefused c = false := by simpa using hRefused
  refine ⟨hRefusedFalse, ?_⟩
  have hSpecial := isRefused_special hRefusedFalse
  simp only [PosixShell.isSpecial, Bool.or_eq_false_iff, beq_eq_false_iff_ne] at hSpecial
  obtain ⟨⟨⟨hLf, hDollar⟩, hBackquote⟩, hBackslash⟩ := hSpecial
  cases hMode : r.mode with
  | base =>
    rw [hMode] at h
    dsimp only [quoteOf] at h
    by_cases hQuote : c = 39 ∨ c = 34
    · left
      unfold Reading.Ordinary
      rw [hMode]
      have hNotHash : c ≠ PosixShell.hash := by
        rcases hQuote with rfl | rfl <;> decide
      refine ⟨⟨hLf, hDollar, hBackquote, hBackslash, ?_, fun hBoth => hNotHash hBoth.1⟩,
        fun _ => ?_⟩
      · rcases hQuote with rfl | rfl <;> decide
      · rcases hQuote with rfl | rfl <;> decide
    rw [if_neg hQuote] at h
    by_cases hUnquoted : c ∈ unquotedRefused
    · rw [if_pos hUnquoted] at h
      exact absurd rfl h
    rw [if_neg hUnquoted] at h
    by_cases hPlain : c ≠ 124 ∧ c ≠ 38
    · left
      unfold Reading.Ordinary
      rw [hMode]
      refine ⟨⟨hLf, hDollar, hBackquote, hBackslash, ?_, ?_⟩, fun _ => hUnquoted⟩
      · by_contra hOperator
        simp only [PosixShell.isOperator, Bool.not_eq_false, Bool.or_eq_true,
          beq_iff_eq] at hOperator
        rcases hOperator with (((((rfl | rfl) | rfl) | rfl) | rfl) | rfl) | rfl
        · exact hPlain.2 rfl
        · exact hPlain.1 rfl
        all_goals exact hUnquoted (by decide)
      · rintro ⟨rfl, -⟩
        exact hUnquoted (by decide)
    rw [if_neg hPlain] at h
    right
    refine ⟨rfl, ?_⟩
    have hJoin : c = 124 ∨ c = 38 := by
      by_contra hNeither
      exact hPlain (not_or.mp hNeither)
    rcases hJoin with rfl | rfl
    · by_cases hBar : rest.head? = some PosixShell.bar
      · obtain ⟨rest', rfl⟩ := List.head?_eq_some_iff.mp hBar
        exact ⟨rest', .or rest'⟩
      · exact ⟨rest, .pipe rest hBar⟩
    · by_cases hAmpersand : rest.head? = some PosixShell.ampersand
      · obtain ⟨rest', rfl⟩ := List.head?_eq_some_iff.mp hAmpersand
        exact ⟨rest', .and rest'⟩
      · exfalso
        apply h
        rw [if_pos rfl]
        cases rest with
        | nil => split_ifs <;> rfl
        | cons d rest =>
          have hNe : d ≠ 38 := fun hEq => hAmpersand (by rw [hEq]; rfl)
          dsimp only
          rw [if_neg hNe]
          split_ifs <;> rfl
  | single body =>
    left
    unfold Reading.Ordinary
    rw [hMode]
    exact ⟨trivial, fun hBase => by cases hBase⟩
  | double body =>
    left
    unfold Reading.Ordinary
    rw [hMode]
    exact ⟨⟨hDollar, hBackquote, hBackslash⟩, fun hBase => by cases hBase⟩
  | comment body => exact absurd hMode (hActive body)

/-! ### A whole command -/

/-- The command, without its quoted text, has no character that the scanner refuses there. -/
def Unquoted (runs : List (List Word)) : Prop :=
  ∀ run ∈ runs, ∀ w ∈ run, ∀ c ∈ unquotedRefused, .plain c ∉ w

theorem unquoted_cons {run : List Word} {runs : List (List Word)} :
    Unquoted (run :: runs) ↔ Unquoted [run] ∧ Unquoted runs := by
  simp [Unquoted]

theorem unquoted_all : Unquoted [r.all] ↔ ∀ c ∈ unquotedRefused, ¬r.Has (.plain c) := by
  simp only [Unquoted, List.mem_singleton, forall_eq, Reading.Has]
  constructor
  · rintro h c hc ⟨w, hw, hIn⟩
    exact h w hw c hc hIn
  · intro h w hw c hc hIn
    exact h c hc ⟨w, hw, hIn⟩

theorem unquoted_step (hActive : r.Active) {c : UInt8}
    (hPlain : r.mode = .base → c ∉ unquotedRefused) (h : Unquoted [r.all]) :
    Unquoted [(r.step c).all] := by
  rw [unquoted_all] at h ⊢
  intro d hd hHas
  rcases (Reading.step_has_plain hActive c d).mp hHas with hOld | ⟨hMode, -, -, -, rfl⟩
  · exact h d hd hOld
  · exact hPlain hMode hd

theorem mode_of_quoteOf (hActive : r.Active) (h : quoteOf r.mode = none) : r.mode = .base := by
  cases hMode : r.mode with
  | base => rfl
  | single body | double body => rw [hMode] at h; cases h
  | comment body => exact absurd hMode (hActive body)

/-- A part that ends outside quotes and is not blank. -/
theorem readsAs_read {text : Bytes} (hReads : Reading.Reads {} text)
    (hMode : (read text).mode = .base) (hTrim : trim text ≠ []) :
    Reading.ReadsAs text (read text).all :=
  ⟨hReads, hMode, rfl, fun hAll => hTrim ((trim_eq_nil_iff text).mpr ⟨hMode, hAll⟩)⟩

theorem commands_end {text : Bytes} (hMode : (read text).mode = .base) (hTrim : trim text ≠ []) :
    (read text).commands [] = some [(read text).all] := by
  have hNil := Reading.commands_nil (read text)
  rw [hMode] at hNil
  rw [hNil]
  exact if_neg fun hAll => hTrim ((trim_eq_nil_iff text).mpr ⟨hMode, hAll⟩)

theorem commands_more {text rest rest' : Bytes} (hMode : (read text).mode = .base)
    (hTrim : trim text ≠ []) (hJoin : Joiner rest rest') :
    (read text).commands rest = (PosixShell.commands rest').map ((read text).all :: ·) := by
  rw [Reading.commands_joiner hMode hJoin]
  exact if_pos fun hAll => hTrim ((trim_eq_nil_iff text).mpr ⟨hMode, hAll⟩)

theorem joiner_length {rest rest' : Bytes} (h : Joiner rest rest') : rest'.length < rest.length := by
  cases h <;> simp only [List.length_cons] <;> omega

theorem joiner_refused {rest rest' : Bytes} (h : Joiner rest rest') :
    (∀ c ∈ rest, isRefused c = false) ↔ ∀ c ∈ rest', isRefused c = false := by
  have hBar : isRefused PosixShell.bar = false := by decide
  have hAmpersand : isRefused PosixShell.ampersand = false := by decide
  cases h <;> simp [hBar, hAmpersand]

theorem scan_sound (result : List Bytes) (text rest : Bytes) (hReads : Reading.Reads {} text)
    (hUnquoted : Unquoted [(read text).all]) (hLength : result.length < kMaxSegments)
    (h : scan result (quoteOf (read text).mode) text rest ≠ []) :
    ∃ raws runs, scan result (quoteOf (read text).mode) text rest = result ++ raws.map trim ∧
      PosixShell.Joined raws (text ++ rest) ∧ (read text).commands rest = some runs ∧
      List.Forall₂ Reading.ReadsAs raws runs ∧ result.length + raws.length ≤ kMaxSegments ∧
      (∀ c ∈ rest, isRefused c = false) ∧ Unquoted runs := by
  induction hSize : rest.length using Nat.strong_induction_on generalizing result text rest with
  | _ n ih =>
    cases rest with
    | nil =>
      rw [scan] at h ⊢
      by_cases hEnd : quoteOf (read text).mode ≠ none ∨ trim text = []
      · rw [if_pos hEnd] at h
        exact absurd rfl h
      rw [if_neg hEnd]
      obtain ⟨hQuote, hTrim⟩ := not_or.mp hEnd
      have hMode := mode_of_quoteOf (read_active text) (not_not.mp hQuote)
      refine ⟨[text], [(read text).all], rfl, ?_, commands_end hMode hTrim,
        .cons (readsAs_read hReads hMode hTrim) .nil, hLength, List.forall_mem_nil _, hUnquoted⟩
      rw [List.append_nil]
      exact .last text
    | cons c rest =>
      obtain ⟨hRefused, ⟨hOrdinary, hPlain⟩ | ⟨hMode, rest', hJoin⟩⟩ :=
        scan_cons_inv (read_active text) h
      · have hStep := scan_ordinary (read_active text) hRefused hOrdinary hPlain result text rest
        rw [← read_append] at hStep
        rw [hStep] at h ⊢
        have hReads' : Reading.Reads {} (text ++ [c]) :=
          (Reading.reads_append {} text [c]).mpr ⟨hReads, hOrdinary, trivial⟩
        have hUnquoted' := unquoted_step (read_active text) hPlain hUnquoted
        rw [← read_append] at hUnquoted'
        obtain ⟨raws, runs, hScan, hJoined, hCommands, hAll, hMax, hRest, hRuns⟩ :=
          ih rest.length (by rw [← hSize]; exact Nat.lt_succ_self _) result (text ++ [c]) rest
            hReads' hUnquoted' hLength h rfl
        refine ⟨raws, runs, hScan, ?_, ?_, hAll, hMax, ?_, hRuns⟩
        · rwa [List.append_assoc] at hJoined
        · rw [Reading.commands_step hOrdinary, ← read_append]
          exact hCommands
        · exact List.forall_mem_cons.mpr ⟨hRefused, hRest⟩
      · rw [hMode] at h ⊢
        dsimp only [quoteOf] at h ⊢
        rw [scan_joiner hJoin] at h ⊢
        by_cases hTrim : trim text = []
        · rw [if_pos hTrim] at h
          exact absurd rfl h
        rw [if_neg hTrim] at h ⊢
        by_cases hFull : kMaxSegments ≤ (result ++ [trim text]).length
        · rw [if_pos hFull] at h
          exact absurd rfl h
        rw [if_neg hFull] at h ⊢
        obtain ⟨raws, runs, hScan, hJoined, hCommands, hAll, hMax, hRest, hRuns⟩ :=
          ih rest'.length (by rw [← hSize]; exact joiner_length hJoin) (result ++ [trim text]) []
            rest' trivial (by simp [Unquoted, read, Reading.all, PosixShell.flush])
            (Nat.lt_of_not_le hFull) h rfl
        obtain ⟨o, hO, hText⟩ := hJoin.split
        refine ⟨text :: raws, (read text).all :: runs, ?_, ?_, ?_,
          .cons (readsAs_read hReads hMode hTrim) hAll, ?_, (joiner_refused hJoin).mpr hRest,
          unquoted_cons.mpr ⟨hUnquoted, hRuns⟩⟩
        · rw [List.append_assoc] at hScan
          exact hScan
        · rw [hText, ← List.append_assoc]
          exact .cons text hO hJoined
        · rw [commands_more hMode hTrim hJoin, PosixShell.commands_eq]
          exact congrArg (Option.map _) hCommands
        · rw [List.length_append, List.length_singleton] at hMax
          rw [List.length_cons]
          omega

theorem unquotedRefused_word : ∀ c ∈ unquotedRefused, PosixShell.isBlank c = false ∧
    c ≠ PosixShell.quote ∧ c ≠ PosixShell.doubleQuote := by
  have hAll : (unquotedRefused.all fun c => !PosixShell.isBlank c && c != PosixShell.quote &&
      c != PosixShell.doubleQuote) = true := by decide
  intro c hMem
  simpa [and_assoc] using List.all_eq_true.mp hAll c hMem

theorem scan_complete (result : List Bytes) (text rest : Bytes) (runs : List (List Word))
    (h : (read text).commands rest = some runs)
    (hLength : result.length + runs.length ≤ kMaxSegments)
    (hRefused : ∀ c ∈ rest, isRefused c = false) (hUnquoted : Unquoted runs) :
    scan result (quoteOf (read text).mode) text rest ≠ [] := by
  induction hSize : rest.length using Nat.strong_induction_on generalizing result text rest runs with
  | _ n ih =>
    cases rest with
    | nil =>
      rw [Reading.commands_nil] at h
      split at h
      next hMode =>
        split_ifs at h with hAll
        have hTrim : trim text ≠ [] := fun hNil => hAll ((trim_eq_nil_iff text).mp hNil).2
        rw [scan, hMode, if_neg (not_or.mpr ⟨fun hQuote => hQuote rfl, hTrim⟩)]
        exact List.append_ne_nil_of_right_ne_nil _ (List.cons_ne_nil _ _)
      all_goals cases h
    | cons c rest =>
      have hc := hRefused c List.mem_cons_self
      have hRest : ∀ d ∈ rest, isRefused d = false :=
        fun d hd => hRefused d (List.mem_cons_of_mem c hd)
      rcases Reading.commands_cons_inv (read_active text) (isRefused_special hc) h with
        ⟨hOrdinary, hNext⟩ | ⟨hMode, rest', runs', hJoin, hAll, hRuns', rfl⟩
      · have hPlain : (read text).mode = .base → c ∉ unquotedRefused := by
          intro hMode hc
          have hHas : ((read text).step c).Has (.plain c) := by
            obtain ⟨hBlank, hQuote, hDouble⟩ := unquotedRefused_word c hc
            exact (Reading.step_has_plain (read_active text) c c).mpr
              (.inr ⟨hMode, hBlank, hQuote, hDouble, rfl⟩)
          obtain ⟨run, hRun, w, hw, hIn⟩ := Reading.commands_has
            (Reading.step_active (read_active text) c)
            (fun d hd => isRefused_special (hRest d hd)) hNext hHas
          exact hUnquoted run hRun w hw c hc hIn
        have hStep := scan_ordinary (read_active text) hc hOrdinary hPlain result text rest
        rw [← read_append] at hStep hNext
        rw [hStep]
        exact ih rest.length (by rw [← hSize]; exact Nat.lt_succ_self _) result (text ++ [c]) rest
          runs hNext hLength hRest hUnquoted rfl
      · have hTrim : trim text ≠ [] := fun hNil => hAll ((trim_eq_nil_iff text).mp hNil).2
        rw [hMode]
        dsimp only [quoteOf]
        have hMore := List.length_pos_iff.mpr (PosixShell.commands_ne_nil hRuns')
        rw [List.length_cons] at hLength
        have hShort : ¬kMaxSegments ≤ (result ++ [trim text]).length := by
          rw [List.length_append, List.length_singleton]
          omega
        rw [scan_joiner hJoin, if_neg hTrim, if_neg hShort]
        exact ih rest'.length (by rw [← hSize]; exact joiner_length hJoin)
          (result ++ [trim text]) [] rest' runs' hRuns'
          (by rw [List.length_append, List.length_singleton]; omega)
          ((joiner_refused hJoin).mp hRefused) (unquoted_cons.mp hUnquoted).2 rfl

theorem segments_ne_nil_iff (command : Bytes) : segments command ≠ [] ↔
    ∃ runs, PosixShell.commands command = some runs ∧ runs.length ≤ kMaxSegments ∧
      (∀ c ∈ command, isRefused c = false) ∧ Unquoted runs := by
  constructor
  · intro h
    obtain ⟨raws, runs, -, -, hCommands, hAll, hMax, hRefused, hUnquoted⟩ :=
      scan_sound [] [] command trivial (by simp [Unquoted, read, Reading.all, PosixShell.flush])
        (by decide) h
    rw [hAll.length_eq, List.length_nil, Nat.zero_add] at hMax
    exact ⟨runs, hCommands, hMax, hRefused, hUnquoted⟩
  · rintro ⟨runs, hCommands, hMax, hRefused, hUnquoted⟩
    exact scan_complete [] [] command runs hCommands
      (by rw [List.length_nil, Nat.zero_add]; exact hMax) hRefused hUnquoted

theorem unquoted_word {w : Word} (h : ∀ c ∈ unquotedRefused, .plain c ∉ w) :
    ¬PosixShell.hasTilde w ∧ ¬PosixShell.isPattern w ∧ ¬PosixShell.isAssignment w := by
  refine ⟨?_, ?_, ?_⟩
  · intro hTilde
    exact h 126 (by decide) (List.mem_of_mem_head? hTilde)
  · rintro (hStar | hMark | hBracket)
    · exact h 42 (by decide) hStar
    · exact h 63 (by decide) hMark
    · exact h 91 (by decide) hBracket
  · rintro ⟨name, value, -, rfl⟩
    exact h 61 (by decide) (List.mem_append_right _ List.mem_cons_self)

namespace CommandPolicy

variable {ρ : Type}

/-! ## Decisions -/

def Matches (regexMatch : ρ → Bytes → Option Bool) (rules : List ρ) (part : Bytes) : Prop :=
  ∃ expression ∈ rules, regexMatch expression part = some true

theorem matches_of_matchesAny {regexMatch : ρ → Bytes → Option Bool} {part : Bytes}
    {rules : List ρ} {answer : Bool} (h : matchesAny regexMatch part rules = some answer) :
    answer = true ↔ Matches regexMatch rules part := by
  induction rules with
  | nil =>
    cases h
    simp [Matches]
  | cons expression rules ih =>
    rw [matchesAny] at h
    split at h
    next => cases h
    next hTrue =>
      cases h
      exact ⟨fun _ => ⟨expression, List.mem_cons_self, hTrue⟩, fun _ => rfl⟩
    next hFalse =>
      rw [ih h]
      unfold Matches
      rw [List.exists_mem_cons_iff, hFalse]
      simp

/-- A part that may run. -/
def Covered (policy : CommandPolicy ρ) (regexMatch : ρ → Bytes → Option Bool) (part : Bytes) :
    Prop :=
  Matches regexMatch policy.readonly part ∨
    (policy.mode = .permissive ∧ Matches regexMatch policy.trusted part)

theorem classifyParts_laws (policy : CommandPolicy ρ) (regexMatch : ρ → Bytes → Option Bool)
    (decision : Decision) (parts : List Bytes)
    (h : policy.classifyParts regexMatch decision parts ≠ .confirm) :
    (∀ part ∈ parts, policy.Covered regexMatch part) ∧
      (policy.classifyParts regexMatch decision parts = .readonly ↔
        decision = .readonly ∧ ∀ part ∈ parts, Matches regexMatch policy.readonly part) := by
  induction parts generalizing decision with
  | nil => simp [classifyParts]
  | cons part parts ih =>
    rw [classifyParts] at h ⊢
    split at h
    next => exact absurd rfl h
    next hReadonly =>
      have hMatch := (matches_of_matchesAny hReadonly).mp rfl
      obtain ⟨hAll, hAnswer⟩ := ih decision h
      refine ⟨List.forall_mem_cons.mpr ⟨.inl hMatch, hAll⟩, ?_⟩
      rw [hAnswer, List.forall_mem_cons]
      simp [hMatch]
    next hReadonly =>
      have hNoMatch : ¬Matches regexMatch policy.readonly part := fun hMatch =>
        Bool.false_ne_true ((matches_of_matchesAny hReadonly).mpr hMatch)
      by_cases hMode : policy.mode = .permissive
      · rw [if_neg (not_not.mpr hMode)] at h
        split at h
        next hTrusted =>
          have hMatch := (matches_of_matchesAny hTrusted).mp rfl
          obtain ⟨hAll, hAnswer⟩ := ih .trustedWrite h
          refine ⟨List.forall_mem_cons.mpr ⟨.inr ⟨hMode, hMatch⟩, hAll⟩, ?_⟩
          rw [if_neg (not_not.mpr hMode), hAnswer, List.forall_mem_cons]
          simp [hNoMatch]
        next => exact absurd rfl h
      · rw [if_pos hMode] at h
        exact absurd rfl h

theorem classify_parts (policy : CommandPolicy ρ) (regexMatch : ρ → Bytes → Option Bool)
    (command : Bytes) (h : policy.classify regexMatch command ≠ .confirm) :
    segments command ≠ [] ∧ policy.classify regexMatch command =
      policy.classifyParts regexMatch .readonly (segments command) := by
  unfold classify at h ⊢
  by_cases hGate : policy.mode = .strict ∨ command = [] ∨ kMaxCommandBytes < command.length
  · rw [if_pos hGate] at h
    exact absurd rfl h
  rw [if_neg hGate] at h ⊢
  cases hSegments : segments command with
  | nil =>
    rw [hSegments] at h
    exact absurd rfl h
  | cons part parts => exact ⟨List.cons_ne_nil _ _, rfl⟩

/-- What runs without confirmation is, for the shell, one to sixteen commands joined by the
three operators. The parts that were matched are these commands, and none is without a rule.
The subset has more words than it needs to be simple commands: reserved words are not refused,
and it has fewer words than it could. -/
theorem classify_laws (policy : CommandPolicy ρ) (regexMatch : ρ → Bytes → Option Bool)
    (command : Bytes) : (policy.classify regexMatch command ≠ .confirm →
      ∃ raws runs, segments command = raws.map trim ∧ PosixShell.Joined raws command ∧
        PosixShell.commands command = some runs ∧
        List.Forall₂ (fun raw run => PosixShell.commands (trim raw) = some [run]) raws runs ∧
        1 ≤ runs.length ∧ runs.length ≤ 16 ∧
        (∀ run ∈ runs, (∀ name ∈ run.head?, name ∉ PosixShell.reservedWords) →
          PosixShell.IsSimple run) ∧
        (∀ run ∈ runs, ∀ w ∈ run, ¬PosixShell.hasTilde w ∧ ¬PosixShell.isPattern w ∧
          ¬PosixShell.isAssignment w) ∧
        (∀ part ∈ segments command, Matches regexMatch policy.readonly part ∨
          (policy.mode = .permissive ∧ Matches regexMatch policy.trusted part)) ∧
        (policy.classify regexMatch command = .readonly ↔
          ∀ part ∈ segments command, Matches regexMatch policy.readonly part)) ∧
    (segments command ≠ [] ↔ ∃ runs, PosixShell.commands command = some runs ∧ runs.length ≤ 16 ∧
        (∀ c ∈ command, isRefused c = false) ∧
        ∀ run ∈ runs, ∀ w ∈ run, ∀ c ∈ unquotedRefused, .plain c ∉ w) := by
  refine ⟨?_, segments_ne_nil_iff command⟩
  intro h
  obtain ⟨hParts, hClassify⟩ := policy.classify_parts regexMatch command h
  rw [hClassify] at h ⊢
  obtain ⟨hCovered, hAnswer⟩ := policy.classifyParts_laws regexMatch .readonly _ h
  obtain ⟨raws, runs, hScan, hJoined, hCommands, hAll, hMax, -, hUnquoted⟩ :=
    scan_sound [] [] command trivial (by simp [Unquoted, read, Reading.all, PosixShell.flush])
      (by decide) hParts
  rw [hAll.length_eq, List.length_nil, Nat.zero_add] at hMax
  refine ⟨raws, runs, hScan, hJoined, hCommands, hAll.imp ?_,
    List.length_pos_iff.mpr (PosixShell.commands_ne_nil hCommands), hMax, ?_, ?_, hCovered, ?_⟩
  · intro raw run hRead
    obtain ⟨before, after, hText, hBefore, hAfter⟩ := trim_spec raw
    rw [hText] at hRead
    exact Reading.commands_readsAs (Reading.readsAs_trim hBefore hAfter hRead)
  · intro run hRun hName
    have hRead := (PosixShell.Reading.forall₂_readsAs hAll) run hRun
    obtain ⟨name, args, rfl⟩ := List.exists_cons_of_ne_nil hRead
    exact ⟨name, args, rfl, hName name rfl,
      (unquoted_word (hUnquoted _ hRun name List.mem_cons_self)).2.2⟩
  · intro run hRun w hw
    exact unquoted_word (hUnquoted run hRun w hw)
  · rw [hAnswer]
    exact ⟨fun hBoth => hBoth.2, fun hMatches => ⟨rfl, hMatches⟩⟩

/-- A rule for the text `if` lets the reserved word run, which is no simple command; and a
simple command with `#` inside a word is refused. -/
theorem reserved_and_hash_sample :
    (classify { mode := .readonly, readonly := [([105, 102] : Bytes)] }
      (fun rule part => some (rule == part)) [105, 102] = .readonly ∧
      PosixShell.commands [105, 102] = some [[[.plain 105, .plain 102]]] ∧
      ¬PosixShell.IsSimple [[.plain 105, .plain 102]]) ∧
    (segments [101, 32, 97, 35, 98] = [] ∧ PosixShell.commands [101, 32, 97, 35, 98] =
        some [[[.plain 101], [.plain 97, .plain 35, .plain 98]]] ∧
      PosixShell.IsSimple [[.plain 101], [.plain 97, .plain 35, .plain 98]] ∧
      ∀ w ∈ [[.plain 101], [.plain 97, .plain 35, .plain 98]], ¬PosixShell.hasTilde w ∧
        ¬PosixShell.isPattern w ∧ ¬PosixShell.isAssignment w) := by
  have hNoAssignment : ∀ w : Word, .plain 61 ∉ w → ¬PosixShell.isAssignment w := by
    rintro w hNot ⟨name, value, -, rfl⟩
    exact hNot (List.mem_append_right _ List.mem_cons_self)
  refine ⟨⟨by decide, by decide, ?_⟩, by decide, by decide, ?_, ?_⟩
  · rintro ⟨name, args, hRun, hReserved, -⟩
    cases hRun
    exact hReserved (by decide +kernel)
  · exact ⟨_, _, rfl, by decide +kernel, hNoAssignment _ (by decide)⟩
  · intro w hw
    simp only [List.mem_cons, List.not_mem_nil, or_false] at hw
    rcases hw with rfl | rfl
    · exact ⟨by unfold PosixShell.hasTilde; decide, by unfold PosixShell.isPattern; decide,
        hNoAssignment _ (by decide)⟩
    · exact ⟨by unfold PosixShell.hasTilde; decide, by unfold PosixShell.isPattern; decide,
        hNoAssignment _ (by decide)⟩

end CommandPolicy

end SimplexAgent.Tools.Process
