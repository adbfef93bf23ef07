import Mathlib.Data.List.Basic

/-!
# Text - literals of a program

Texts, truth values, tuples and dictionaries as a program writes them out, and the reader that
takes them back: the characters are cut into tokens, and the tokens are put together on a
stack.  A parenthesis around one value is no tuple, unless a comma follows the value.

Main results:

- Definition {lit}`Literal.read`: the reader.
- Theorems {lit}`Spells.commas`, {lit}`Spells.separated` and {lit}`Spells.dict`: the tokens
  that spell tuples and dictionaries.
- Theorems {lit}`Writes.commas`, {lit}`Writes.separated` and {lit}`Writes.dict`: the characters
  that write them out.
- Theorem {lit}`Literal.read_of_writes`: what is written out is read back.
-/

namespace Literals

/-- A value that is written out. -/
inductive Literal where
  | text (s : String)
  | bool (b : Bool)
  | tuple (items : List Literal)
  | dict (items : List (Literal × Literal))

/-- A token of a literal. -/
inductive Token where
  | openTuple
  | closeTuple
  | openDict
  | closeDict
  | comma
  | colon
  | text (s : String)
  | word (s : String)

/-! ## Cutting -/

/-- Where the reader is: between tokens, or in a text or a word, of which it has seen the
characters. -/
inductive Position where
  | between
  | inText (seen : List Char)
  | inWord (seen : List Char)

/-- The token that is one character. -/
def punctuation? : Char → Option Token
  | '(' => some .openTuple
  | ')' => some .closeTuple
  | '\x7b' => some .openDict
  | '\x7d' => some .closeDict
  | ',' => some .comma
  | ':' => some .colon
  | _ => none

/-- A character between tokens. -/
def start (c : Char) : Option (List Token × Position) :=
  if c = ' ' ∨ c = '\n' then some ([], .between)
  else if c = '"' then some ([], .inText [])
  else
    match punctuation? c with
    | some token => some ([token], .between)
    | none => if c.isAlpha then some ([], .inWord [c]) else none

/-- A character that a text has as it is: no quote, no escape and no end of a line. -/
def isPlain (c : Char) : Bool :=
  c ∉ ['"', '\\', '\n', '\r', '\x00']

/-- One character: the tokens it completes, and where the reader is then. -/
def advance : Position → Char → Option (List Token × Position)
  | .between, c => start c
  | .inText seen, c =>
      if c = '"' then some ([.text (String.ofList seen)], .between)
      else if isPlain c then some ([], .inText (seen ++ [c]))
      else none
  | .inWord seen, c =>
      if c.isAlpha then some ([], .inWord (seen ++ [c]))
      else (start c).map fun next => (.word (String.ofList seen) :: next.1, next.2)

/-- The tokens that some characters are cut into. -/
def lexFrom : Position → List Char → Option (List Token)
  | .between, [] => some []
  | .inText _, [] => none
  | .inWord seen, [] => some [.word (String.ofList seen)]
  | position, c :: rest =>
      (advance position c).bind fun next => (lexFrom next.2 rest).map (next.1 ++ ·)

/-! ## Putting together -/

/-- What is open: a tuple with the values before the last comma, or a dictionary with its
entries so far, and the key whose value comes next. -/
inductive Frame where
  | tuple (items : List Literal)
  | dict (items : List (Literal × Literal)) (key : Option Literal)

/-- The value that was read last, if no comma or colon followed, and what is open, the
innermost first. -/
structure Reading where
  pending : Option Literal
  stack : List Frame

/-- A value has been read. -/
def Reading.push (self : Reading) (value : Literal) : Option Reading :=
  match self.pending with
  | none => some { self with pending := some value }
  | some _ => none

/-- What a word stands for. -/
def wordValue? (s : String) : Option Literal :=
  if s = "True" then some (.bool true)
  else if s = "False" then some (.bool false)
  else none

/-- One token. -/
def Reading.step (self : Reading) : Token → Option Reading
  | .text s => self.push (.text s)
  | .word s => (wordValue? s).bind self.push
  | .openTuple =>
      match self.pending with
      | none => some ⟨none, .tuple [] :: self.stack⟩
      | some _ => none
  | .openDict =>
      match self.pending with
      | none => some ⟨none, .dict [] none :: self.stack⟩
      | some _ => none
  | .comma =>
      match self.pending, self.stack with
      | some value, .tuple items :: stack => some ⟨none, .tuple (items ++ [value]) :: stack⟩
      | some value, .dict items (some key) :: stack =>
          some ⟨none, .dict (items ++ [(key, value)]) none :: stack⟩
      | _, _ => none
  | .colon =>
      match self.pending, self.stack with
      | some key, .dict items none :: stack => some ⟨none, .dict items (some key) :: stack⟩
      | _, _ => none
  | .closeTuple =>
      match self.pending, self.stack with
      | some value, .tuple [] :: stack => some ⟨some value, stack⟩
      | pending, .tuple items :: stack => some ⟨some (.tuple (items ++ pending.toList)), stack⟩
      | _, _ => none
  | .closeDict =>
      match self.pending, self.stack with
      | none, .dict items none :: stack => some ⟨some (.dict items), stack⟩
      | some value, .dict items (some key) :: stack =>
          some ⟨some (.dict (items ++ [(key, value)])), stack⟩
      | _, _ => none

/-- The value that is left when everything is closed. -/
def Reading.finish (self : Reading) : Option Literal :=
  match self.stack with
  | [] => self.pending
  | _ :: _ => none

/-- The literal that a text writes out. -/
def Literal.read (s : String) : Option Literal := do
  let tokens ← lexFrom .between s.toList
  let reading ← tokens.foldlM Reading.step ⟨none, []⟩
  reading.finish

/-! ## What is cut -/

/-- Characters that are cut into tokens, whatever follows them. -/
def Lexes (chars : List Char) (tokens : List Token) : Prop :=
  ∀ rest, lexFrom .between (chars ++ rest) = (lexFrom .between rest).map (tokens ++ ·)

/-- A character is read where the lexer stands. -/
theorem lexFrom_cons {position next : Position} {c : Char} {tokens : List Token}
    (h : advance position c = some (tokens, next)) (rest : List Char) :
    lexFrom position (c :: rest) = (lexFrom next rest).map (tokens ++ ·) := by
  rw [lexFrom, h, Option.bind_some]

/-- A character that completes nothing. -/
theorem lexFrom_skip {position next : Position} {c : Char}
    (h : advance position c = some ([], next)) (rest : List Char) :
    lexFrom position (c :: rest) = lexFrom next rest := by
  rw [lexFrom_cons h]
  exact Option.map_id'

theorem lexes_nil : Lexes [] [] := by
  intro rest
  simp

/-- Texts that lex on their own lex one after the other. -/
theorem Lexes.append {chars chars' : List Char} {tokens tokens' : List Token}
    (h : Lexes chars tokens) (h' : Lexes chars' tokens') :
    Lexes (chars ++ chars') (tokens ++ tokens') := by
  intro rest
  rw [List.append_assoc, h, h', Option.map_map]
  congr 1
  funext others
  simp

/-- A list of parts is cut part by part. -/
theorem Lexes.flatMap {α : Type} {parts : List α} {chars : α → List Char}
    {tokens : α → List Token} (h : ∀ part ∈ parts, Lexes (chars part) (tokens part)) :
    Lexes (parts.flatMap chars) (parts.flatMap tokens) := by
  induction parts with
  | nil => exact lexes_nil
  | cons part parts ih =>
      rw [List.flatMap_cons, List.flatMap_cons]
      exact (h part List.mem_cons_self).append
        (ih fun other hother => h other (List.mem_cons_of_mem part hother))

/-- A character that completes its tokens. -/
theorem lexes_char {c : Char} {tokens : List Token} (h : start c = some (tokens, .between)) :
    Lexes [c] tokens := by
  have hadvance : advance .between c = some (tokens, .between) := h
  exact fun rest => lexFrom_cons hadvance rest

/-- The inside of a text, up to the quote after it. -/
theorem lexFrom_inText {chars : List Char} (h : ∀ c ∈ chars, isPlain c = true)
    (seen rest : List Char) :
    lexFrom (.inText seen) (chars ++ '"' :: rest) =
      (lexFrom .between rest).map (.text (String.ofList (seen ++ chars)) :: ·) := by
  induction chars generalizing seen with
  | nil =>
      have hend : advance (.inText seen) '"' =
          some ([.text (String.ofList seen)], .between) := rfl
      rw [List.append_nil]
      exact lexFrom_cons hend rest
  | cons c chars ih =>
      have hc := h c List.mem_cons_self
      have hquote : c ≠ '"' := by
        rintro rfl
        exact absurd hc (by decide)
      have hinside : advance (.inText seen) c = some ([], .inText (seen ++ [c])) := by
        rw [advance, if_neg hquote, if_pos hc]
      have hnext := ih (fun c' hc' => h c' (List.mem_cons_of_mem c hc')) (seen ++ [c])
      rw [List.cons_append, lexFrom_skip hinside, hnext, List.append_assoc,
        List.singleton_append]

/-- A text in quotes. -/
theorem lexes_text {s : String} (h : ∀ c ∈ s.toList, isPlain c = true) :
    Lexes ('"' :: s.toList ++ ['"']) [.text s] := by
  intro rest
  have hquote : advance .between '"' = some ([], .inText []) := rfl
  rw [List.append_assoc, List.cons_append, lexFrom_skip hquote, List.singleton_append,
    lexFrom_inText h, List.nil_append, String.ofList_toList]
  rfl

/-- The inside of a word, up to the character after it. -/
theorem lexFrom_inWord {chars : List Char} (h : ∀ c ∈ chars, c.isAlpha = true) {c : Char}
    {tokens : List Token} (hc : c.isAlpha = false) (hstart : start c = some (tokens, .between))
    (seen rest : List Char) :
    lexFrom (.inWord seen) (chars ++ c :: rest) =
      (lexFrom .between rest).map (.word (String.ofList (seen ++ chars)) :: tokens ++ ·) := by
  induction chars generalizing seen with
  | nil =>
      have hend : advance (.inWord seen) c =
          some (.word (String.ofList seen) :: tokens, .between) := by
        rw [advance, hc, if_neg (by decide), hstart]
        rfl
      rw [List.append_nil]
      exact lexFrom_cons hend rest
  | cons first chars ih =>
      have hfirst := h first List.mem_cons_self
      have hinside : advance (.inWord seen) first = some ([], .inWord (seen ++ [first])) := by
        rw [advance, if_pos hfirst]
      have hnext := ih (fun c' hc' => h c' (List.mem_cons_of_mem first hc')) (seen ++ [first])
      rw [List.cons_append, lexFrom_skip hinside, hnext, List.append_assoc,
        List.singleton_append]

/-- A word, and the character that ends it. -/
theorem lexes_word {first : Char} (chars : List Char)
    (hstart : start first = some ([], .inWord [first])) (h : ∀ c ∈ chars, c.isAlpha = true)
    {c : Char} {tokens : List Token} (hc : c.isAlpha = false)
    (hnext : start c = some (tokens, .between)) :
    Lexes (first :: chars ++ [c]) (.word (String.ofList (first :: chars)) :: tokens) := by
  intro rest
  have hfirst : advance .between first = some ([], .inWord [first]) := hstart
  rw [List.cons_append, List.cons_append, List.append_assoc, List.singleton_append,
    lexFrom_skip hfirst, lexFrom_inWord h hc hnext, List.singleton_append]

/-! ## What is spelled -/

/-- Tokens that spell a value out, wherever they stand. -/
def Spells (tokens : List Token) (value : Literal) : Prop :=
  ∀ stack, tokens.foldlM Reading.step ⟨none, stack⟩ = some ⟨some value, stack⟩

theorem spells_text (s : String) : Spells [.text s] (.text s) :=
  fun _ => rfl

theorem spells_bool (b : Bool) : Spells [.word (if b then "True" else "False")] (.bool b) := by
  intro stack
  cases b <;> rfl

/-- Tokens after which a tuple has some values more, each with its comma. -/
theorem foldlM_commas {α : Type} {parts : List α} {tokens : α → List Token}
    {value : α → Literal} (h : ∀ part ∈ parts, Spells (tokens part) (value part))
    (items : List Literal) (stack : List Frame) :
    (parts.flatMap fun part => tokens part ++ [.comma]).foldlM Reading.step
        ⟨none, .tuple items :: stack⟩ =
      some ⟨none, .tuple (items ++ parts.map value) :: stack⟩ := by
  induction parts generalizing items with
  | nil => simp
  | cons part parts ih =>
      have hpart := h part List.mem_cons_self (.tuple items :: stack)
      have hrest := ih (fun other hother => h other (List.mem_cons_of_mem part hother))
        (items ++ [value part])
      rw [List.flatMap_cons, List.foldlM_append, List.foldlM_append, hpart]
      simp only [Option.bind_eq_bind, Option.bind_some, List.foldlM_cons, List.foldlM_nil,
        Reading.step, Option.pure_def]
      rw [hrest, List.map_cons, List.append_assoc, List.singleton_append]

/-- A tuple with a comma after each value. -/
theorem Spells.commas {α : Type} {parts : List α} {tokens : α → List Token}
    {value : α → Literal} (h : ∀ part ∈ parts, Spells (tokens part) (value part)) :
    Spells (.openTuple :: (parts.flatMap fun part => tokens part ++ [.comma]) ++ [.closeTuple])
      (.tuple (parts.map value)) := by
  intro stack
  rw [List.cons_append, List.foldlM_cons]
  simp only [Reading.step, Option.bind_eq_bind, Option.bind_some]
  rw [List.foldlM_append, foldlM_commas h, List.nil_append]
  simp [Reading.step]

/-- A tuple with commas between its values, of which there is more than one. -/
theorem Spells.separated {α : Type} {init : List α} {tokens : α → List Token}
    {value : α → Literal} {lastTokens : List Token} {lastValue : Literal}
    (h : ∀ part ∈ init, Spells (tokens part) (value part))
    (hlast : Spells lastTokens lastValue) (hinit : init ≠ []) :
    Spells (.openTuple :: (init.flatMap fun part => tokens part ++ [.comma]) ++
        (lastTokens ++ [.closeTuple]))
      (.tuple (init.map value ++ [lastValue])) := by
  intro stack
  have hend := hlast (.tuple (init.map value) :: stack)
  rw [List.cons_append, List.foldlM_cons]
  simp only [Reading.step, Option.bind_eq_bind, Option.bind_some]
  rw [List.foldlM_append, foldlM_commas h, List.nil_append, Option.bind_eq_bind,
    Option.bind_some, List.foldlM_append, hend]
  cases hitems : init.map value with
  | nil => exact absurd (List.map_eq_nil_iff.mp hitems) hinit
  | cons item items => simp [Reading.step]

/-- Tokens after which a dictionary has some entries more, each with its comma. -/
theorem foldlM_entries {α : Type} {parts : List α} {keyTokens valueTokens : α → List Token}
    {key value : α → Literal}
    (h : ∀ part ∈ parts, Spells (keyTokens part) (key part) ∧
      Spells (valueTokens part) (value part))
    (items : List (Literal × Literal)) (stack : List Frame) :
    (parts.flatMap fun part => keyTokens part ++ .colon :: valueTokens part ++
        [.comma]).foldlM Reading.step ⟨none, .dict items none :: stack⟩ =
      some ⟨none, .dict (items ++ parts.map fun part => (key part, value part)) none ::
        stack⟩ := by
  induction parts generalizing items with
  | nil => simp
  | cons part parts ih =>
      rcases h part List.mem_cons_self with ⟨hkey, hvalue⟩
      have hkey' := hkey (.dict items none :: stack)
      have hvalue' := hvalue (.dict items (some (key part)) :: stack)
      have hrest := ih (fun other hother => h other (List.mem_cons_of_mem part hother))
        (items ++ [(key part, value part)])
      rw [List.flatMap_cons, List.foldlM_append, List.foldlM_append, List.foldlM_append, hkey']
      simp only [Option.bind_eq_bind, Option.bind_some, List.foldlM_cons, List.foldlM_nil,
        Reading.step, Option.pure_def, hvalue']
      rw [hrest, List.map_cons, List.append_assoc, List.singleton_append]

/-- A dictionary with a comma after each entry. -/
theorem Spells.dict {α : Type} {parts : List α} {keyTokens valueTokens : α → List Token}
    {key value : α → Literal}
    (h : ∀ part ∈ parts, Spells (keyTokens part) (key part) ∧
      Spells (valueTokens part) (value part)) :
    Spells (.openDict :: (parts.flatMap fun part => keyTokens part ++ .colon ::
        valueTokens part ++ [.comma]) ++ [.closeDict])
      (.dict (parts.map fun part => (key part, value part))) := by
  intro stack
  rw [List.cons_append, List.foldlM_cons]
  simp only [Reading.step, Option.bind_eq_bind, Option.bind_some]
  rw [List.foldlM_append, foldlM_entries h, List.nil_append]
  simp [Reading.step]

/-! ## What is written -/

/-- Blanks are cut into nothing. -/
theorem lexes_blank {chars : List Char} (h : ∀ c ∈ chars, c = ' ' ∨ c = '\n') :
    Lexes chars [] := by
  induction chars with
  | nil => exact lexes_nil
  | cons c chars ih =>
      have hc : start c = some ([], .between) := if_pos (h c List.mem_cons_self)
      exact (lexes_char hc).append (ih fun other hother => h other (List.mem_cons_of_mem c hother))

/-- Characters that write a value out. -/
def Writes (chars : List Char) (value : Literal) : Prop :=
  ∃ tokens, Lexes chars tokens ∧ Spells tokens value

/-- Characters that do so before the end of a tuple. -/
def WritesLast (chars : List Char) (value : Literal) : Prop :=
  ∃ tokens, Lexes (chars ++ [')']) (tokens ++ [.closeTuple]) ∧ Spells tokens value

/-- What may be followed by anything may come last. -/
theorem Writes.last {chars : List Char} {value : Literal} (h : Writes chars value) :
    WritesLast chars value := by
  rcases h with ⟨tokens, hlexes, hspells⟩
  exact ⟨tokens, hlexes.append (lexes_char rfl), hspells⟩

/-- A text of plain characters is written between quotes. -/
theorem writes_text {s : String} (h : ∀ c ∈ s.toList, isPlain c = true) :
    Writes ('"' :: s.toList ++ ['"']) (.text s) :=
  ⟨_, lexes_text h, spells_text s⟩

/-- A truth value is written as a word, with nothing of a word behind it. -/
theorem writesLast_bool (b : Bool) :
    WritesLast (if b then "True" else "False").toList (.bool b) := by
  refine ⟨_, ?_, spells_bool b⟩
  cases b with
  | true => exact lexes_word ['r', 'u', 'e'] rfl (by simp) rfl rfl
  | false => exact lexes_word ['a', 'l', 's', 'e'] rfl (by simp) rfl rfl

/-- Blanks around it do not matter. -/
theorem Writes.pad {before chars after : List Char} {value : Literal} (h : Writes chars value)
    (hbefore : Lexes before []) (hafter : Lexes after []) :
    Writes (before ++ chars ++ after) value := by
  rcases h with ⟨tokens, hlexes, hspells⟩
  refine ⟨tokens, ?_, hspells⟩
  have hpadded := (hbefore.append hlexes).append hafter
  rwa [List.nil_append, List.append_nil] at hpadded

section Composite

variable {α : Type} {parts : List α} {chars : α → List Char} {value : α → Literal}
  {opening before after closing : List Char}

/-- Tokens for all the parts that are written. -/
theorem exists_tokens (h : ∀ part ∈ parts, Writes (chars part) (value part)) :
    ∃ tokens : α → List Token, ∀ part ∈ parts,
      Lexes (chars part) (tokens part) ∧ Spells (tokens part) (value part) := by
  have hall : ∀ part, ∃ tokens, part ∈ parts →
      Lexes (chars part) tokens ∧ Spells tokens (value part) := by
    intro part
    by_cases hpart : part ∈ parts
    · rcases h part hpart with ⟨tokens, htokens⟩
      exact ⟨tokens, fun _ => htokens⟩
    · exact ⟨[], fun hpart' => absurd hpart' hpart⟩
  choose tokens htokens using hall
  exact ⟨tokens, htokens⟩

/-- A part between blanks, and the comma after it. -/
theorem Lexes.item {chars : List Char} {tokens : List Token} (h : Lexes chars tokens)
    (hbefore : Lexes before []) (hafter : Lexes after []) :
    Lexes (before ++ chars ++ ',' :: after) (tokens ++ [.comma]) := by
  have hitem := (hbefore.append h).append ((lexes_char (c := ',') rfl).append hafter)
  rwa [List.nil_append, List.append_nil] at hitem

/-- A tuple with a comma after each part. -/
theorem Writes.commas (h : ∀ part ∈ parts, Writes (chars part) (value part))
    (hopening : Lexes opening []) (hbefore : Lexes before []) (hafter : Lexes after [])
    (hclosing : Lexes closing []) :
    Writes ('(' :: opening ++ (parts.flatMap fun part => before ++ chars part ++ ',' :: after) ++
      (closing ++ [')'])) (.tuple (parts.map value)) := by
  rcases exists_tokens h with ⟨tokens, htokens⟩
  refine ⟨_, ?_, Spells.commas fun part hpart => (htokens part hpart).2⟩
  have hparts := Lexes.flatMap fun part hpart => ((htokens part hpart).1.item hbefore hafter)
  have hopen := (lexes_char (c := '(') rfl).append hopening
  have hclose := hclosing.append (lexes_char (c := ')') rfl)
  rw [List.append_nil] at hopen
  exact (hopen.append hparts).append hclose

/-- A tuple with commas between its parts. -/
theorem Writes.separated {lastChars : List Char} {lastValue : Literal}
    (h : ∀ part ∈ parts, Writes (chars part) (value part)) (hlast : WritesLast lastChars lastValue)
    (hparts : parts ≠ []) (hafter : Lexes after []) :
    Writes ('(' :: (parts.flatMap fun part => chars part ++ ',' :: after) ++
      (lastChars ++ [')'])) (.tuple (parts.map value ++ [lastValue])) := by
  rcases exists_tokens h with ⟨tokens, htokens⟩
  rcases hlast with ⟨lastTokens, hlastLexes, hlastSpells⟩
  refine ⟨_, ?_, Spells.separated (fun part hpart => (htokens part hpart).2) hlastSpells hparts⟩
  have hitems := Lexes.flatMap fun part hpart => ((htokens part hpart).1.item lexes_nil hafter)
  exact ((lexes_char (c := '(') rfl).append hitems).append hlastLexes

/-- A dictionary with a comma after each entry. -/
theorem Writes.dict {keyChars valueChars : α → List Char} {key value : α → Literal}
    {middle : List Char}
    (hkeys : ∀ part ∈ parts, Writes (keyChars part) (key part))
    (hvalues : ∀ part ∈ parts, Writes (valueChars part) (value part))
    (hopening : Lexes opening []) (hbefore : Lexes before []) (hmiddle : Lexes middle [])
    (hafter : Lexes after []) (hclosing : Lexes closing []) :
    Writes ('\x7b' :: opening ++ (parts.flatMap fun part => before ++
      (keyChars part ++ ':' :: middle ++ valueChars part) ++ ',' :: after) ++
      (closing ++ ['\x7d'])) (.dict (parts.map fun part => (key part, value part))) := by
  rcases exists_tokens hkeys with ⟨keyTokens, hkeyTokens⟩
  rcases exists_tokens hvalues with ⟨valueTokens, hvalueTokens⟩
  refine ⟨_, ?_, Spells.dict fun part hpart =>
    ⟨(hkeyTokens part hpart).2, (hvalueTokens part hpart).2⟩⟩
  have hentries : ∀ part ∈ parts, Lexes (keyChars part ++ ':' :: middle ++ valueChars part)
      (keyTokens part ++ .colon :: valueTokens part) := by
    intro part hpart
    have hcolon := (lexes_char (c := ':') rfl).append hmiddle
    have hentry := ((hkeyTokens part hpart).1.append hcolon).append (hvalueTokens part hpart).1
    rw [List.append_nil] at hentry
    simpa using hentry
  have hparts := Lexes.flatMap fun part hpart => ((hentries part hpart).item hbefore hafter)
  have hopen := (lexes_char (c := '\x7b') rfl).append hopening
  have hclose := hclosing.append (lexes_char (c := '\x7d') rfl)
  rw [List.append_nil] at hopen
  exact (hopen.append hparts).append hclose

end Composite

/-! ## The round trip -/

/-- What is cut into tokens that spell a value out is read as that value. -/
theorem Literal.read_of_writes {s : String} {value : Literal} (h : Writes s.toList value) :
    read s = some value := by
  rcases h with ⟨tokens, hlexes, hspells⟩
  have htokens : lexFrom .between s.toList = some tokens := by
    have hall := hlexes []
    rw [List.append_nil] at hall
    rw [hall]
    simp [lexFrom]
  rw [read, htokens]
  simp only [Option.bind_eq_bind, Option.bind_some, hspells []]
  rfl

/-- One value in parentheses is that value; with a comma after it, it is a tuple. -/
example : Literal.read "((\"a\"), (\"a\",), (), True)" =
    some (.tuple [.text "a", .tuple [.text "a"], .tuple [], .bool true]) := by
  with_unfolding_all rfl

end Literals
