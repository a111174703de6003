import Mathlib.Data.List.Basic

/-!
# Shell command lines

Token recognition of the POSIX shell over bytes, and the part of its grammar that has
only simple commands joined by `|`, `||` and `&&`. Quoting is kept: a word is the list
of its fragments, so that it can be told whether a character stands for itself. An
unquoted or double-quoted `$` or backquote starts an expansion, and the recognition of
such a command stops there. (`<<-` is read as `<<`: neither is in the grammar below.)

A stretch of text without operators, comments and line ends is read from left to right.
`Reading` is the state of that, and `commands` at a reading is computed one character
at a time.
-/

namespace SimplexAgent.Verified.PosixShell

/-! ## Characters -/

def lf : UInt8 := 10
def space : UInt8 := 32
def tab : UInt8 := 9
def quote : UInt8 := 39
def doubleQuote : UInt8 := 34
def dollar : UInt8 := 36
def backquote : UInt8 := 96
def backslash : UInt8 := 92
def hash : UInt8 := 35
def bar : UInt8 := 124
def ampersand : UInt8 := 38

def isBlank (c : UInt8) : Bool := c == space || c == tab

/-- `& | ; < > ( )`. -/
def isOperator (c : UInt8) : Bool :=
  c == ampersand || c == bar || c == 59 || c == 60 || c == 62 || c == 40 || c == 41

/-- `&& || ;; << >> <& >& <> >|`. -/
def isOperatorPair (c d : UInt8) : Bool :=
  (c == ampersand && d == ampersand) || (c == bar && d == bar) || (c == 59 && d == 59) ||
    (c == 60 && (d == 60 || d == 38 || d == 62)) ||
    (c == 62 && (d == 62 || d == 38 || d == 124))

/-! ## Tokens -/

/-- A piece of a word, by how it is quoted. -/
inductive Fragment where
  | plain (c : UInt8)
  | escaped (c : UInt8)
  | single (body : List UInt8)
  | double (body : List UInt8)
  deriving DecidableEq

abbrev Word := List Fragment

inductive Token where
  | word (fragments : Word)
  | operator (text : List UInt8)
  | newline
  | comment (text : List UInt8)
  deriving DecidableEq

inductive LexError where
  | unterminated
  | expansion
  deriving DecidableEq

/-- Where the recognition is. -/
inductive Mode where
  | base
  | single (body : List UInt8)
  | double (body : List UInt8)
  | comment (body : List UInt8)
  deriving DecidableEq

/-- The word that is delimited, if one was begun. -/
def flush (w : Word) : List Word := if w = [] then [] else [w]

def lex : Mode → Word → List UInt8 → Except LexError (List Token)
  | .base, w, [] => .ok ((flush w).map .word)
  | .comment body, _, [] => .ok [.comment body]
  | .single _, _, [] => .error .unterminated
  | .double _, _, [] => .error .unterminated
  | .base, w, c :: rest =>
    if c = lf then (lex .base [] rest).map fun ts => (flush w).map .word ++ .newline :: ts
    else if isBlank c then (lex .base [] rest).map fun ts => (flush w).map .word ++ ts
    else if c = quote then lex (.single []) w rest
    else if c = doubleQuote then lex (.double []) w rest
    else if c = dollar ∨ c = backquote then .error .expansion
    else if c = backslash then
      match rest with
      | [] => .error .unterminated
      | d :: rest =>
        if d = lf then lex .base w rest else lex .base (w ++ [.escaped d]) rest
    else if isOperator c then
      match rest with
      | [] => .ok ((flush w).map .word ++ [.operator [c]])
      | d :: rest' =>
        if isOperatorPair c d then
          (lex .base [] rest').map fun ts => (flush w).map .word ++ .operator [c, d] :: ts
        else
          (lex .base [] (d :: rest')).map fun ts => (flush w).map .word ++ .operator [c] :: ts
    else if c = hash ∧ w = [] then lex (.comment []) [] rest
    else lex .base (w ++ [.plain c]) rest
  | .single body, w, c :: rest =>
    if c = quote then lex .base (w ++ [.single body]) rest
    else lex (.single (body ++ [c])) w rest
  | .double body, w, c :: rest =>
    if c = doubleQuote then lex .base (w ++ [.double body]) rest
    else if c = dollar ∨ c = backquote then .error .expansion
    else if c = backslash then
      match rest with
      | [] => .error .unterminated
      | d :: rest => lex (.double (body ++ [c, d])) w rest
    else lex (.double (body ++ [c])) w rest
  | .comment body, w, c :: rest =>
    if c = lf then (lex .base [] rest).map fun ts => .comment body :: .newline :: ts
    else lex (.comment (body ++ [c])) w rest

/-! ## Grammar -/

def joiners : List (List UInt8) := [[bar], [bar, bar], [ampersand, ampersand]]

/-- The commands of a token list, when they are runs of words joined by these operators;
`ws` are the words before. -/
def commandsFrom (ws : List Word) : List Token → Option (List (List Word))
  | [] => if ws = [] then none else some [ws]
  | .word w :: ts => commandsFrom (ws ++ [w]) ts
  | .operator o :: ts =>
    if ws ≠ [] ∧ o ∈ joiners then (commandsFrom [] ts).map (ws :: ·) else none
  | .newline :: _ => none
  | .comment _ :: _ => none

/-- The commands of a text that has no expansion, redirection, grouping, comment or
background execution. -/
def commands (text : List UInt8) : Option (List (List Word)) :=
  match lex .base [] text with
  | .ok ts => commandsFrom [] ts
  | .error _ => none

/-- Text that stands for itself. -/
def plainWord (text : String) : Word := text.toUTF8.toList.map .plain

/-- The words that are not a command name where a command is expected. -/
def reservedWords : List Word :=
  ["!", "\x7b", "\x7d", "case", "do", "done", "elif", "else", "esac", "fi", "for", "if", "in",
    "then", "until", "while"].map plainWord

def hasTilde (w : Word) : Prop := w.head? = some (.plain 126)

/-- The word is a pattern: it has an unquoted `*`, `?` or `[`. -/
def isPattern (w : Word) : Prop := .plain 42 ∈ w ∨ .plain 63 ∈ w ∨ .plain 91 ∈ w

def isNameStart (c : UInt8) : Bool :=
  (65 ≤ c && c ≤ 90) || (97 ≤ c && c ≤ 122) || c == 95

/-- A name: letters, digits and underscores, the first of them no digit. -/
def isName : List UInt8 → Bool
  | [] => false
  | c :: rest => isNameStart c && rest.all fun d => isNameStart d || (48 ≤ d && d ≤ 57)

/-- The word has the shape of an assignment: an unquoted name and an unquoted `=`. -/
def isAssignment (w : Word) : Prop :=
  ∃ (name : List UInt8) (value : Word), isName name ∧ w = name.map .plain ++ .plain 61 :: value

/-- A simple command: words, of which the first is neither reserved nor an assignment. -/
def IsSimple (run : List Word) : Prop :=
  ∃ name args, run = name :: args ∧ name ∉ reservedWords ∧ ¬isAssignment name

/-! ## Reading without operators -/

structure Reading where
  mode : Mode := .base
  words : List Word := []
  word : Word := []

namespace Reading

/-- All words, the last one as far as it has been read. -/
def all (r : Reading) : List Word := r.words ++ flush r.word

/-- One more character that is no operator, line end or comment, and starts no expansion. -/
def step (r : Reading) (c : UInt8) : Reading :=
  match r.mode with
  | .base =>
    if isBlank c then { mode := .base, words := r.all, word := [] }
    else if c = quote then { r with mode := .single [] }
    else if c = doubleQuote then { r with mode := .double [] }
    else { r with word := r.word ++ [.plain c] }
  | .single body =>
    if c = quote then { r with mode := .base, word := r.word ++ [.single body] }
    else { r with mode := .single (body ++ [c]) }
  | .double body =>
    if c = doubleQuote then { r with mode := .base, word := r.word ++ [.double body] }
    else { r with mode := .double (body ++ [c]) }
  | .comment _ => r

/-- The characters `step` is about. -/
def Ordinary (r : Reading) (c : UInt8) : Prop :=
  match r.mode with
  | .base => c ≠ lf ∧ c ≠ dollar ∧ c ≠ backquote ∧ c ≠ backslash ∧ isOperator c = false ∧
      ¬(c = hash ∧ r.word = [])
  | .single _ => True
  | .double _ => c ≠ dollar ∧ c ≠ backquote ∧ c ≠ backslash
  | .comment _ => False

def commands (r : Reading) (rest : List UInt8) : Option (List (List Word)) :=
  match lex r.mode r.word rest with
  | .ok ts => commandsFrom r.words ts
  | .error _ => none

end Reading

theorem commands_eq (text : List UInt8) : commands text = Reading.commands {} text := rfl

theorem commandsFrom_words (ws vs : List Word) (ts : List Token) :
    commandsFrom ws (vs.map .word ++ ts) = commandsFrom (ws ++ vs) ts := by
  induction vs generalizing ws with
  | nil => simp
  | cons v vs ih =>
    rw [List.map_cons, List.cons_append, commandsFrom, ih, List.append_assoc, List.singleton_append]

theorem commandsFrom_ne_nil {ws : List Word} {ts : List Token} {runs : List (List Word)}
    (h : commandsFrom ws ts = some runs) : runs ≠ [] := by
  induction ts generalizing ws with
  | nil =>
    rw [commandsFrom] at h
    split_ifs at h
    cases h
    exact List.cons_ne_nil _ _
  | cons t ts ih =>
    cases t with
    | word w => exact ih h
    | operator o =>
      rw [commandsFrom] at h
      split_ifs at h
      obtain ⟨runs', -, rfl⟩ := Option.map_eq_some_iff.mp h
      exact List.cons_ne_nil _ _
    | newline => cases h
    | comment text => cases h

theorem commands_ne_nil {text : List UInt8} {runs : List (List Word)}
    (h : commands text = some runs) : runs ≠ [] := by
  unfold commands at h
  split at h
  · exact commandsFrom_ne_nil h
  · cases h

namespace Reading

theorem commands_step {r : Reading} {c : UInt8} (h : r.Ordinary c) (rest : List UInt8) :
    r.commands (c :: rest) = (r.step c).commands rest := by
  obtain ⟨mode, words, word⟩ := r
  cases mode with
  | base =>
    obtain ⟨hLf, hDollar, hBackquote, hBackslash, hOperator, hHash⟩ := h
    have hNoOperator : ¬isOperator c = true := ne_true_of_eq_false hOperator
    unfold commands step
    dsimp only
    rw [lex.eq_def]
    dsimp only
    rw [if_neg hLf, if_neg (not_or.mpr ⟨hDollar, hBackquote⟩), if_neg hBackslash,
      if_neg hNoOperator, if_neg hHash]
    split_ifs with hBlank hQuote hDouble
    · cases lex .base [] rest with
      | error e => rfl
      | ok ts => exact commandsFrom_words words (flush word) ts
    · rfl
    · rfl
    · rfl
  | single body =>
    unfold commands step
    dsimp only
    rw [lex]
    split_ifs <;> rfl
  | double body =>
    obtain ⟨hDollar, hBackquote, hBackslash⟩ := h
    unfold commands step
    dsimp only
    rw [lex.eq_def]
    dsimp only
    split_ifs <;> simp_all
  | comment body => cases h

/-- The end of the text. -/
theorem commands_nil (r : Reading) : r.commands [] =
    match r.mode with
    | .base => if r.all = [] then none else some [r.all]
    | .comment _ => none
    | .single _ | .double _ => none := by
  obtain ⟨mode, words, word⟩ := r
  cases mode with
  | base =>
    have hWords := commandsFrom_words words (flush word) []
    rw [List.append_nil] at hWords
    unfold commands
    dsimp only
    rw [lex]
    dsimp only
    rw [hWords, commandsFrom]
    rfl
  | single body | double body | comment body => rfl

end Reading

/-! ## Operators -/

/-- The text starts with an operator that joins commands, and goes on with `rest`. -/
inductive Joiner : List UInt8 → List UInt8 → Prop
  | or (rest : List UInt8) : Joiner (bar :: bar :: rest) rest
  | pipe (rest : List UInt8) (h : rest.head? ≠ some bar) : Joiner (bar :: rest) rest
  | and (rest : List UInt8) : Joiner (ampersand :: ampersand :: rest) rest

theorem Joiner.split {text rest : List UInt8} (h : Joiner text rest) :
    ∃ o ∈ joiners, text = o ++ rest := by
  cases h with
  | or => exact ⟨[bar, bar], by decide, rfl⟩
  | pipe => exact ⟨[bar], by decide, rfl⟩
  | and => exact ⟨[ampersand, ampersand], by decide, rfl⟩

/-- The texts, with one of these operators between any two of them. -/
inductive Joined : List (List UInt8) → List UInt8 → Prop
  | last (text : List UInt8) : Joined [text] text
  | cons (text : List UInt8) {o rest : List UInt8} {texts : List (List UInt8)} (hO : o ∈ joiners)
      (h : Joined texts rest) : Joined (text :: texts) (text ++ o ++ rest)

theorem isOperator_cases {c : UInt8} (h : isOperator c = true) :
    c ≠ lf ∧ isBlank c = false ∧ c ≠ quote ∧ c ≠ doubleQuote ∧ ¬(c = dollar ∨ c = backquote) ∧
      c ≠ backslash := by
  simp only [isOperator, Bool.or_eq_true, beq_iff_eq] at h
  rcases h with (((((rfl | rfl) | rfl) | rfl) | rfl) | rfl) | rfl <;> decide

theorem lex_operator_pair {c d : UInt8} (hOperator : isOperator c = true)
    (hPair : isOperatorPair c d = true) (w : Word) (rest : List UInt8) :
    lex .base w (c :: d :: rest) = (lex .base [] rest).map fun ts =>
      (flush w).map .word ++ .operator [c, d] :: ts := by
  obtain ⟨hLf, hBlank, hQuote, hDouble, hExpansion, hBackslash⟩ := isOperator_cases hOperator
  rw [lex.eq_def]
  dsimp only
  rw [if_neg hLf, if_neg (ne_true_of_eq_false hBlank), if_neg hQuote, if_neg hDouble,
    if_neg hExpansion, if_neg hBackslash, if_pos hOperator, if_pos hPair]

theorem lex_operator_single {c : UInt8} {rest : List UInt8} (hOperator : isOperator c = true)
    (hSingle : ∀ d, rest.head? = some d → isOperatorPair c d = false) (w : Word) :
    lex .base w (c :: rest) = (lex .base [] rest).map fun ts =>
      (flush w).map .word ++ .operator [c] :: ts := by
  obtain ⟨hLf, hBlank, hQuote, hDouble, hExpansion, hBackslash⟩ := isOperator_cases hOperator
  rw [lex.eq_def]
  dsimp only
  rw [if_neg hLf, if_neg (ne_true_of_eq_false hBlank), if_neg hQuote, if_neg hDouble,
    if_neg hExpansion, if_neg hBackslash, if_pos hOperator]
  cases rest with
  | nil => rfl
  | cons d rest =>
    dsimp only
    rw [if_neg (ne_true_of_eq_false (hSingle d rfl))]

namespace Reading

theorem commands_operator {r : Reading} {o text rest : List UInt8} (hMode : r.mode = .base)
    (hLex : lex .base r.word text = (lex .base [] rest).map fun ts =>
      (flush r.word).map .word ++ .operator o :: ts) :
    r.commands text = if r.all ≠ [] ∧ o ∈ joiners then
      (PosixShell.commands rest).map (r.all :: ·) else none := by
  unfold commands PosixShell.commands
  rw [hMode, hLex]
  cases lex .base [] rest with
  | error e => split_ifs <;> rfl
  | ok ts =>
    show commandsFrom r.words ((flush r.word).map .word ++ .operator o :: ts) = _
    rw [commandsFrom_words, commandsFrom]
    rfl

theorem commands_joiner {r : Reading} (hMode : r.mode = .base) {text rest : List UInt8}
    (h : Joiner text rest) : r.commands text =
      if r.all ≠ [] then (PosixShell.commands rest).map (r.all :: ·) else none := by
  cases h with
  | or | and =>
    rw [commands_operator hMode (lex_operator_pair (by decide) (by decide) r.word rest)]
    simp [joiners]
  | pipe _ hHead =>
    have hSingle : ∀ d, rest.head? = some d → isOperatorPair bar d = false := by
      intro d hd
      have hNe : d ≠ bar := by
        intro hEq
        exact hHead (hEq ▸ hd)
      simpa [isOperatorPair, bar, ampersand] using hNe
    rw [commands_operator hMode (lex_operator_single (by decide) hSingle r.word)]
    simp [joiners]

theorem commands_operator_inv {r : Reading} {c : UInt8} {rest : List UInt8}
    {runs : List (List Word)} (hMode : r.mode = .base) (hOperator : isOperator c = true)
    (h : r.commands (c :: rest) = some runs) : ∃ rest', Joiner (c :: rest) rest' := by
  by_cases hSingle : ∀ d, rest.head? = some d → isOperatorPair c d = false
  · rw [commands_operator hMode (lex_operator_single hOperator hSingle r.word)] at h
    have hJoin : [c] ∈ joiners := by
      by_contra hNot
      rw [if_neg (fun hBoth => hNot hBoth.2)] at h
      cases h
    have hBar : c = bar := by simpa [joiners] using hJoin
    subst hBar
    refine ⟨rest, .pipe rest ?_⟩
    intro hHead
    have hPair := hSingle bar hHead
    revert hPair
    decide
  · push Not at hSingle
    obtain ⟨d, hHead, hPair⟩ := hSingle
    obtain ⟨rest', rfl⟩ : ∃ rest', rest = d :: rest' := by
      cases rest with
      | nil => cases hHead
      | cons e rest' => exact ⟨rest', by rw [Option.some.inj hHead]⟩
    have hTrue : isOperatorPair c d = true := by simpa using hPair
    rw [commands_operator hMode (lex_operator_pair hOperator hTrue r.word rest')] at h
    have hJoin : [c, d] ∈ joiners := by
      by_contra hNot
      rw [if_neg (fun hBoth => hNot hBoth.2)] at h
      cases h
    have hBoth : (c = bar ∧ d = bar) ∨ (c = ampersand ∧ d = ampersand) := by
      simpa [joiners] using hJoin
    rcases hBoth with ⟨rfl, rfl⟩ | ⟨rfl, rfl⟩
    · exact ⟨rest', .or rest'⟩
    · exact ⟨rest', .and rest'⟩

end Reading

/-! ## Whole texts -/

theorem lex_comment (body : List UInt8) (w : Word) (rest : List UInt8) (ts : List Token)
    (h : lex (.comment body) w rest = .ok ts) : ∃ text more, ts = .comment text :: more := by
  induction rest generalizing body with
  | nil =>
    cases h
    exact ⟨body, [], rfl⟩
  | cons c rest ih =>
    rw [lex] at h
    split_ifs at h with hLf
    · cases hRest : lex .base [] rest with
      | error e => rw [hRest] at h; cases h
      | ok more => rw [hRest] at h; cases h; exact ⟨body, _, rfl⟩
    · exact ih _ h

/-- The characters that end or expand a command anywhere in a text. -/
def isSpecial (c : UInt8) : Bool :=
  c == lf || c == dollar || c == backquote || c == backslash

namespace Reading

def Active (r : Reading) : Prop := ∀ body, r.mode ≠ .comment body

theorem step_active {r : Reading} (h : r.Active) (c : UInt8) : (r.step c).Active := by
  intro body
  unfold step
  split
  · split_ifs <;> simp_all
  · split_ifs <;> simp_all
  · split_ifs <;> simp_all
  · exact h body

theorem commands_cons_inv {r : Reading} {c : UInt8} {rest : List UInt8}
    {runs : List (List Word)} (hActive : r.Active) (hSpecial : isSpecial c = false)
    (h : r.commands (c :: rest) = some runs) :
    (r.Ordinary c ∧ (r.step c).commands rest = some runs) ∨
    (r.mode = .base ∧ ∃ rest' runs', Joiner (c :: rest) rest' ∧ r.all ≠ [] ∧
      PosixShell.commands rest' = some runs' ∧ runs = r.all :: runs') := by
  simp only [isSpecial, Bool.or_eq_false_iff, beq_eq_false_iff_ne] at hSpecial
  obtain ⟨⟨⟨hLf, hDollar⟩, hBackquote⟩, hBackslash⟩ := hSpecial
  by_cases hOrdinary : r.Ordinary c
  · exact .inl ⟨hOrdinary, commands_step hOrdinary rest ▸ h⟩
  right
  have hMode : r.mode = .base := by
    unfold Ordinary at hOrdinary
    split at hOrdinary
    · assumption
    · exact absurd trivial hOrdinary
    · exact absurd ⟨hDollar, hBackquote, hBackslash⟩ hOrdinary
    · exact absurd ‹_› (hActive _)
  refine ⟨hMode, ?_⟩
  by_cases hOperator : isOperator c = true
  · obtain ⟨rest', hJoin⟩ := commands_operator_inv hMode hOperator h
    rw [commands_joiner hMode hJoin] at h
    split_ifs at h with hAll
    obtain ⟨runs', hRuns', hEq⟩ := Option.map_eq_some_iff.mp h
    exact ⟨rest', runs', hJoin, hAll, hRuns', hEq.symm⟩
  -- what is left is the beginning of a comment
  have hHash : c = hash ∧ r.word = [] := by
    by_contra hNot
    apply hOrdinary
    unfold Ordinary
    rw [hMode]
    exact ⟨hLf, hDollar, hBackquote, hBackslash, by simpa using hOperator, hNot⟩
  obtain ⟨rfl, hWord⟩ := hHash
  have hLex : lex .base [] (hash :: rest) = lex (.comment []) [] rest := by
    rw [lex.eq_def]
    rfl
  unfold commands at h
  rw [hMode, hWord, hLex] at h
  cases hRest : lex (.comment []) [] rest with
  | error e => rw [hRest] at h; cases h
  | ok ts =>
    obtain ⟨text, more, rfl⟩ := lex_comment [] [] rest ts hRest
    rw [hRest] at h
    cases h

end Reading

/-! ## Stretches without operators -/

theorem flush_eq_nil {w : Word} : flush w = [] ↔ w = [] := by
  unfold flush
  split_ifs <;> simp_all

theorem mem_flush {w v : Word} : v ∈ flush w ↔ w ≠ [] ∧ v = w := by
  unfold flush
  split_ifs <;> simp_all

namespace Reading

/-- The text has no operator, line end, comment or expansion, seen from the reading. -/
def Reads (r : Reading) : List UInt8 → Prop
  | [] => True
  | c :: rest => r.Ordinary c ∧ (r.step c).Reads rest

theorem reads_append (r : Reading) (xs ys : List UInt8) :
    r.Reads (xs ++ ys) ↔ r.Reads xs ∧ (xs.foldl step r).Reads ys := by
  induction xs generalizing r with
  | nil => simp [Reads]
  | cons c xs ih => simp only [List.cons_append, Reads, ih, List.foldl_cons, and_assoc]

variable {r : Reading}

theorem commands_reads {xs : List UInt8} (h : r.Reads xs) (rest : List UInt8) :
    r.commands (xs ++ rest) = (xs.foldl step r).commands rest := by
  induction xs generalizing r with
  | nil => rfl
  | cons c xs ih =>
    rw [List.cons_append, commands_step h.1, ih h.2]
    rfl

theorem all_eq_nil : r.all = [] ↔ r.words = [] ∧ r.word = [] := by
  unfold all
  rw [List.append_eq_nil_iff, flush_eq_nil]

theorem step_all_eq_nil (h : r.Active) (c : UInt8) :
    ((r.step c).mode = .base ∧ (r.step c).all = []) ↔
      (r.mode = .base ∧ r.all = []) ∧ isBlank c = true := by
  unfold step
  split
  · split_ifs <;> simp_all [all_eq_nil]
  · split_ifs <;> simp_all [all_eq_nil]
  · split_ifs <;> simp_all [all_eq_nil]
  · exact absurd ‹_› (h _)

theorem foldl_active (h : r.Active) (xs : List UInt8) : (xs.foldl step r).Active := by
  induction xs generalizing r with
  | nil => exact h
  | cons c xs ih => exact ih (step_active h c)

theorem foldl_all_eq_nil (h : r.Active) (xs : List UInt8) :
    ((xs.foldl step r).mode = .base ∧ (xs.foldl step r).all = []) ↔
      (r.mode = .base ∧ r.all = []) ∧ ∀ c ∈ xs, isBlank c = true := by
  induction xs generalizing r with
  | nil => simp
  | cons c xs ih =>
    rw [List.foldl_cons, ih (step_active h c), step_all_eq_nil h, List.forall_mem_cons, and_assoc]

theorem foldl_blanks {xs : List UInt8} (h : ∀ c ∈ xs, isBlank c = true) :
    xs.foldl step {} = {} := by
  induction xs with
  | nil => rfl
  | cons c xs ih =>
    have hStep : step {} c = {} := by
      unfold step
      dsimp only
      rw [if_pos (h c List.mem_cons_self)]
      rfl
    rw [List.foldl_cons, hStep]
    exact ih fun d hd => h d (List.mem_cons_of_mem c hd)

theorem foldl_blanks_end {xs : List UInt8} (h : ∀ c ∈ xs, isBlank c = true)
    (hMode : (xs.foldl step r).mode = .base) (hActive : r.Active) :
    r.mode = .base ∧ (xs.foldl step r).all = r.all := by
  induction xs generalizing r with
  | nil => exact ⟨hMode, rfl⟩
  | cons c xs ih =>
    have hBlank := h c List.mem_cons_self
    obtain ⟨hStepMode, hAll⟩ := ih (fun d hd => h d (List.mem_cons_of_mem c hd)) hMode
      (step_active hActive c)
    have hNoQuote : c ≠ quote ∧ c ≠ doubleQuote := by
      constructor <;> rintro rfl <;> revert hBlank <;> decide
    have hBase : r.mode = .base := by
      unfold step at hStepMode
      split at hStepMode
      · assumption
      · rw [if_neg hNoQuote.1] at hStepMode; cases hStepMode
      · rw [if_neg hNoQuote.2] at hStepMode; cases hStepMode
      · exact absurd ‹_› (hActive _)
    refine ⟨hBase, ?_⟩
    rw [List.foldl_cons, hAll]
    unfold step
    rw [hBase]
    dsimp only
    rw [if_pos hBlank]
    simp [all, flush]

def ReadsAs (text : List UInt8) (run : List Word) : Prop :=
  Reads {} text ∧ (text.foldl step {}).mode = .base ∧ (text.foldl step {}).all = run ∧ run ≠ []

theorem commands_readsAs {text : List UInt8} {run : List Word} (h : ReadsAs text run) :
    PosixShell.commands text = some [run] := by
  obtain ⟨hReads, hMode, rfl, hNe⟩ := h
  have hNil := commands_nil (text.foldl step {})
  rw [hMode] at hNil
  have hAppend := commands_reads hReads []
  rw [List.append_nil] at hAppend
  rw [commands_eq, hAppend, hNil]
  exact if_neg hNe

theorem forall₂_readsAs {texts : List (List UInt8)} {runs : List (List Word)}
    (h : List.Forall₂ ReadsAs texts runs) : ∀ run ∈ runs, run ≠ [] := by
  induction h with
  | nil => exact List.forall_mem_nil _
  | cons hHead _ ih => exact List.forall_mem_cons.mpr ⟨hHead.2.2.2, ih⟩

theorem readsAs_trim {before text after : List UInt8} {run : List Word}
    (hBefore : ∀ c ∈ before, isBlank c = true) (hAfter : ∀ c ∈ after, isBlank c = true)
    (h : ReadsAs (before ++ text ++ after) run) : ReadsAs text run := by
  obtain ⟨hReads, hMode, hAll, hNe⟩ := h
  rw [List.append_assoc, reads_append, foldl_blanks hBefore, reads_append] at hReads
  rw [List.append_assoc, List.foldl_append, foldl_blanks hBefore, List.foldl_append] at hMode hAll
  have hActive : (text.foldl step {}).Active :=
    foldl_active (by intro body hBody; cases hBody) text
  obtain ⟨hTextMode, hTextAll⟩ := foldl_blanks_end hAfter hMode hActive
  exact ⟨hReads.2.1, hTextMode, hTextAll.symm.trans hAll, hNe⟩

/-! ## Fragments -/

def Has (r : Reading) (f : Fragment) : Prop := ∃ w ∈ r.all, f ∈ w

theorem has_iff {f : Fragment} : r.Has f ↔ (∃ w ∈ r.words, f ∈ w) ∨ f ∈ r.word := by
  unfold Has all
  simp only [List.mem_append, mem_flush]
  constructor
  · rintro ⟨w, hw | ⟨_, rfl⟩, hf⟩
    · exact .inl ⟨w, hw, hf⟩
    · exact .inr hf
  · rintro (⟨w, hw, hf⟩ | hf)
    · exact ⟨w, .inl hw, hf⟩
    · exact ⟨r.word, .inr ⟨List.ne_nil_of_mem hf, rfl⟩, hf⟩

theorem step_has_plain (hActive : r.Active) (c d : UInt8) :
    (r.step c).Has (.plain d) ↔ r.Has (.plain d) ∨ (r.mode = .base ∧ isBlank c = false ∧
      c ≠ quote ∧ c ≠ doubleQuote ∧ d = c) := by
  unfold step
  split
  · split_ifs with hBlank hQuote hDouble
    · simp [has_iff, hBlank, all, mem_flush, or_and_right, exists_or]
      aesop
    · simp [has_iff, hQuote]
    · simp [has_iff, hDouble]
    · simp_all [has_iff, or_assoc]
  · split_ifs <;> simp_all [has_iff]
  · split_ifs <;> simp_all [has_iff]
  · exact absurd ‹_› (hActive _)

theorem commands_has {rest : List UInt8} {runs : List (List Word)} {c : UInt8} (hActive : r.Active)
    (hSpecial : ∀ c ∈ rest, isSpecial c = false) (h : r.commands rest = some runs)
    (hHas : r.Has (.plain c)) : ∃ run ∈ runs, ∃ w ∈ run, .plain c ∈ w := by
  induction rest generalizing r with
  | nil =>
    rw [commands_nil] at h
    split at h
    · split_ifs at h
      cases h
      exact ⟨r.all, List.mem_cons_self, hHas⟩
    · cases h
    · cases h
    · cases h
  | cons d rest ih =>
    rcases commands_cons_inv hActive (hSpecial d List.mem_cons_self) h with
      ⟨hOrdinary, hRest⟩ | ⟨hMode, rest', runs', hJoin, hAll, hRuns', rfl⟩
    · exact ih (step_active hActive d) (fun e he => hSpecial e (List.mem_cons_of_mem d he))
        hRest ((step_has_plain hActive d c).mpr (.inl hHas))
    · exact ⟨r.all, List.mem_cons_self, hHas⟩

end Reading

end SimplexAgent.Verified.PosixShell
