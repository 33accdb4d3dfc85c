import ForeignCall.Text.Numeral
import ForeignCall.Tool.Script.Quoting

/-!
# ForeignCall.Tool.Script.Grammar

Reading commands. A script is read line by line: all commands up to the end of a line are read
before the first of them is run, so what is malformed further down does not keep them from running.

* `Source.nextCommand` — the commands of the next line.
-/

namespace ForeignCall.Script

open Text (Octets octets)

/-- What is being read. -/
inductive Goal where
  /-- Commands up to the end of the line. -/
  | line
  /-- Commands, at least one, up to what closes them. -/
  | block
  /-- Commands up to what closes them. -/
  | body
  | command
deriving DecidableEq

/-- Whether a token closes a block. -/
def Token.closes : Token → Bool
  | endOfText | closeParen | endBranch => true
  | keyword k => ["do", "done", "elif", "else", "esac", "fi", "then", "\x7d"].contains k
  | _ => false

/-- Whether a token is a keyword. -/
def Token.isKeyword (name : String) : Token → Bool
  | keyword k => k = name
  | _ => false

/-- The name of a keyword in messages. -/
def quotedName (name : String) : String := "\"" ++ name ++ "\""

namespace Reader

/-! ## Tokens -/

/-- The descriptor that a word in front of a redirection is. -/
def descriptorOf : Word → Option (Option Nat)
  | [] => some none
  | [.char c false] => (Text.digitIn 10 c).map some
  | _ => none

/-- A redirection, from its first sign on. -/
def readRedirect (descriptor : Option Nat) (sign : Char) : Reader Token := do
  skip
  let next ← look
  let token (default : Nat) (sign : RedirectSign) : Token :=
    .redirect (descriptor.getD default) sign
  if sign = '>' then
    match next with
    | some '>' => skip; pure (token 1 (.flow .append))
    | some '|' => skip; pure (token 1 (.flow .overwrite))
    | some '&' => skip; pure (token 1 (.flow .copy))
    | _ => pure (token 1 (.flow .write))
  else
    match next with
    | some '<' =>
      skip
      if (← look) = some '-' then skip; pure (token 0 (.document true))
      else pure (token 0 (.document false))
    | some '&' => skip; pure (token 0 (.flow .copy))
    | some '>' => skip; pure (token 0 (.flow .readWrite))
    | _ => pure (token 0 (.flow .read))

/-- A word, or a redirection with the digit in front of it. -/
def readWordToken (nested : Nested) (p : Place) : Reader Token := do
  let w ← readWord nested p
  match descriptorOf w, ← look with
  | some descriptor, some '<' => readRedirect descriptor '<'
  | some descriptor, some '>' => readRedirect descriptor '>'
  | _, _ => pure (.word w)

/-- A sign that counts double if it is repeated. -/
def doubled (sign : Char) (once twice : Token) : Reader (Unit ⊕ Token) := do
  if (← look) = some sign then skip; pure (.inr twice) else pure (.inr once)

/-- Reads a token, or passes over a blank or a comment. -/
def readTokenStep (nested : Nested) (p : Place) : Reader (Unit ⊕ Token) := do
  match ← look with
  | none => pure (.inr .endOfText)
  | some c =>
    if c = ' ' ∨ c = '\t' then skip; pure (.inl ())
    else if c = '#' then
      widen (·.contains '\n')
      modify fun s => { s with rest := s.rest.dropWhile (· ≠ '\n') }
      pure (.inl ())
    else if c = '\n' then skip; nextLine; pure (.inr .newline)
    else if c = '&' then skip; doubled '&' .background .andThen
    else if c = '|' then skip; doubled '|' .pipe .orElse
    else if c = ';' then skip; doubled ';' .semicolon .endBranch
    else if c = '(' then skip; pure (.inr .openParen)
    else if c = ')' then skip; pure (.inr .closeParen)
    else .inr <$> readWordToken nested p

/-- The next token, taken again if it has been put back. -/
def readToken (nested : Nested) (p : Place) : Reader Token := do
  match (← get).ahead with
  | some t =>
    modify fun s => { s with ahead := none }
    pure t
  | none =>
    modify Source.release
    repeatUntil (fun _ => readTokenStep nested p) (← bound) ()

/-! ## Texts that stand in the script -/

/-- Reads a line of a text that is taken as it is, or finds that it ends the text; the lines that
have been read are given from the last to the first. -/
def readLine (m : Mark) (lines : List Octets) : Reader (List Octets ⊕ Octets) := do
  widen (·.contains '\n')
  let text := (← get).rest
  let raw := text.takeWhile (· ≠ '\n')
  let ended := raw.length < text.length
  modify fun s => { s with
    rest := text.drop (raw.length + 1), line := if ended then s.line + 1 else s.line
    cut := s.cut || !ended }
  let line := if m.strip then raw.dropWhile (· = '\t') else raw
  if text.isEmpty ∨ line = m.line then pure (.inr lines.reverse.flatten)
  else pure (.inl ((if ended then line ++ ['\n'] else line) :: lines))

/-- Reads the text of a redirection. -/
def readPending (nested : Nested) (d : Pending) : Reader Unit := do
  let m : Mark := ⟨d.delimiter, d.strip⟩
  let w ←
    if d.quoted then quotedWord <$> (do repeatUntil (readLine m) (← bound) [])
    else readDocument nested m
  modify fun s => { s with documents := s.documents.setIfInBounds d.number w }

/-- Reads all texts whose lines come next. -/
def readDocuments (nested : Nested) : Reader Unit := do
  let pending := (← get).pending
  modify fun s => { s with pending := [] }
  pending.forM (readPending nested)

/-- What the next token can be. -/
structure TokenPlace where
  /-- Words can be keywords. -/
  keywords : Bool := false
  /-- Words can be aliases. -/
  aliases : Bool := false
  /-- Line feeds are passed over. -/
  lines : Bool := false
  /-- It is the line that ends a text which stands in the script. -/
  delimiter : Bool := false

/-- At the start of a command. -/
def TokenPlace.start : TokenPlace := { keywords := true, aliases := true }

/-- At the start of a command that can stand on a line further down. -/
def TokenPlace.startBelow : TokenPlace := { keywords := true, aliases := true, lines := true }

/-- At the start of the patterns of a branch. -/
def TokenPlace.pattern : TokenPlace := { keywords := true, lines := true }

/-- Reads a token, or a name in the place of which something else is to be read. -/
def readFresh (nested : Nested) (x : TokenPlace) : Reader (TokenPlace ⊕ Token) := do
  let t ← readToken nested { delimiter := x.delimiter }
  let t ← match t, x.lines with
    | .newline, true => do
      readDocuments nested
      repeatUntil (fun _ => do
        match ← readToken nested {} with
        | .newline => readDocuments nested; pure (.inl ())
        | t => pure (.inr t)) (← bound) ()
    | t, _ => pure t
  let s ← get
  set { s with chained := false }
  match t with
  | .word w =>
    match plainText? w with
    | some text =>
      let name := String.ofList text
      if x.keywords ∧ keywords.contains name then pure (.inr (.keyword name))
      else
        match if x.aliases || s.chained then s.valueOf? text else none with
        | some value =>
          modify fun s => s.substitute text value
          pure (.inl { x with aliases := true, delimiter := false })
        | none => pure (.inr t)
    | none => pure (.inr t)
  | t => pure (.inr t)

/-- The next token. -/
def token (nested : Nested) (x : TokenPlace) : Reader Token := do
  repeatUntil (readFresh nested) (← bound) x

/-- Takes the token that has to come next. -/
def require (t : Token) (fits : Token → Bool) (expected : String) : Reader Unit :=
  if fits t then pure () else unexpected t (some expected)

/-- Takes the keyword that has to come next. -/
def requireKeyword (t : Token) (name : String) : Reader Unit :=
  require t (Token.isKeyword name) (quotedName name)

/-! ## Redirections -/

/-- The redirection behind its sign. -/
def readTarget (nested : Nested) (descriptor : Nat) (sign : RedirectSign) : Reader Redirect := do
  match sign with
  | .flow flow =>
    match ← token nested {} with
    | .word w => pure (.mk descriptor flow w)
    | t => unexpected t none
  | .document strip =>
    match ← token nested { delimiter := true } with
    | .word w =>
      let number := (← get).documents.size
      let text := w.filterMap fun
        | .char c _ => some c
        | _ => none
      let quoted := (plainText? w).isNone
      modify fun s => { s with
        documents := s.documents.push []
        pending := s.pending ++ [⟨number, text, strip, quoted⟩] }
      pure (.mk descriptor (.document number) [])
    | t => unexpected t none

/-- The redirections that follow a command. -/
def readRedirects (nested : Nested) : Reader (List Redirect) := do
  repeatUntil (fun ((x, taken) : TokenPlace × List Redirect) => do
    match ← token nested x with
    | .redirect descriptor sign => pure (.inl ({}, (← readTarget nested descriptor sign) :: taken))
    | t => putBack t; pure (.inr taken.reverse)) (← bound) (.start, [])

/-! ## Commands -/

/-- The parts of a simple command that have been read, from the last to the first. -/
structure Parts where
  assignments : List (Octets × Word) := []
  words : List Word := []
  redirects : List Redirect := []

/-- The command that parts make up. -/
def Parts.command (x : Parts) (line : Nat) : Command :=
  .simple line x.assignments.reverse x.words.reverse x.redirects.reverse

/-- A function, behind its name. -/
def readFunction (self : Goal → Reader Command) (nested : Nested) (name : Word) :
    Reader Command := do
  require (← token nested {}) (fun | .closeParen => true | _ => false) (quotedName ")")
  match plainText? name with
  | some text =>
    if isName text ∧ !specialBuiltins.contains (String.ofList text) then
      let line := (← get).line
      pure (.function line text (← self .command))
    else fail "Bad function name"
  | none => fail "Bad function name"

/-- Reads a part of a simple command, or finds its end. -/
def readPart (self : Goal → Reader Command) (nested : Nested) (line : Nat) (x : Parts) :
    Reader (Parts ⊕ Command) := do
  match ← token nested { aliases := x.words.isEmpty } with
  | .word w =>
    match x.words.isEmpty, assignment? w with
    | true, some a => pure (.inl { x with assignments := a :: x.assignments })
    | _, _ => pure (.inl { x with words := w :: x.words })
  | .redirect descriptor sign =>
    let r ← readTarget nested descriptor sign
    pure (.inl { x with redirects := r :: x.redirects })
  | .openParen =>
    match x.assignments, x.words, x.redirects with
    | [], [name], [] => .inr <$> readFunction self nested name
    | _, _, _ => putBack .openParen; pure (.inr (x.command line))
  | t => putBack t; pure (.inr (x.command line))

/-- What comes after the first condition: a command, further conditions and what is left. -/
def readBranches (self : Goal → Reader Command) (nested : Nested) :
    Reader Command := do
  let close (branches : List (Command × Command)) (last : Command) : Command :=
    branches.foldl (fun rest (test, yes) => .cond test yes rest) last
  repeatUntil (fun (branches : List (Command × Command)) => do
    let test ← self .block
    requireKeyword (← token nested {}) "then"
    let yes ← self .block
    let branches := (test, yes) :: branches
    match ← token nested {} with
    | .keyword "elif" => pure (.inl branches)
    | .keyword "else" => pure (.inr (close branches (← self .block)))
    | t => putBack t; pure (.inr (close branches .nothing))) (← bound) []

/-- The words that a loop goes through, and whether they are given. -/
def readItems (nested : Nested) : Reader (List Word) := do
  match ← token nested .startBelow with
  | .keyword "in" =>
    repeatUntil (fun (taken : List Word) => do
      match ← token nested {} with
      | .word w => pure (.inl (w :: taken))
      | .newline | .semicolon => pure (.inr taken.reverse)
      | t => unexpected t none) (← bound) []
  | .semicolon => pure [[.param ['@'] .value true]]
  | t => putBack t; pure [[.param ['@'] .value true]]

/-- A loop through words. -/
def readEach (self : Goal → Reader Command) (nested : Nested) (line : Nat) : Reader Command := do
  let name ← match ← token nested {} with
    | .word w =>
      match plainText? w with
      | some text => if isName text then pure text else fail "Bad for loop variable"
      | none => fail "Bad for loop variable"
    | _ => fail "Bad for loop variable"
  let words ← readItems nested
  requireKeyword (← token nested .startBelow) "do"
  pure (.each line name words (← self .block))

/-- The pattern that a token is. -/
def patternOf : Token → Word
  | .word w => w
  | .keyword k => k.toList.map fun c => .char c false
  | _ => []

/-- The patterns of a branch, from the first on. -/
def readPatterns (nested : Nested) (first : Token) : Reader (List Word) := do
  let first ← match first with
    | .openParen => token nested {}
    | t => pure t
  repeatUntil (fun (taken : List Word) => do
    match ← token nested {} with
    | .pipe => pure (.inl (patternOf (← token nested {}) :: taken))
    | .closeParen => pure (.inr taken.reverse)
    | t => unexpected t (some (quotedName ")"))) (← bound) [patternOf first]

/-- A case. -/
def readSelect (self : Goal → Reader Command) (nested : Nested) (line : Nat) :
    Reader Command := do
  let subject ← match ← token nested {} with
    | .word w => pure w
    | t => unexpected t (some "word")
  requireKeyword (← token nested .startBelow) "in"
  let first ← token nested .pattern
  repeatUntil (fun ((branches, t) : List Branch × Token) => do
    if t.isKeyword "esac" then pure (.inr (.select line subject branches.reverse))
    else
      let patterns ← readPatterns nested t
      let branch := Branch.mk patterns (← self .body)
      match ← token nested .pattern with
      | .endBranch => pure (.inl (branch :: branches, ← token nested .pattern))
      | .keyword "esac" => pure (.inr (.select line subject (branch :: branches).reverse))
      | t => unexpected t (some (quotedName ";;"))) (← bound) ([], first)

/-- A command with the redirections that follow it. -/
def withRedirects (nested : Nested) (line : Nat) (c : Command) : Reader Command := do
  match c, ← readRedirects nested with
  | .subshell line body _, redirects => pure (.subshell line body redirects)
  | c, [] => pure c
  | c, redirects => pure (.redirected line c redirects)

/-- A command, whose first token has been read. -/
def readCommand (self : Goal → Reader Command) (nested : Nested) (t : Token) :
    Reader Command := do
  let line := (← get).line
  match t with
  | .word _ | .redirect .. =>
    putBack t
    repeatUntil (readPart self nested line) (← bound) {}
  | .openParen =>
    let body ← self .block
    require (← token nested {}) (fun | .closeParen => true | _ => false) (quotedName ")")
    withRedirects nested line (.subshell line body [])
  | .keyword "\x7b" =>
    let body ← self .block
    requireKeyword (← token nested {}) "\x7d"
    withRedirects nested line body
  | .keyword "if" =>
    let c ← readBranches self nested
    requireKeyword (← token nested {}) "fi"
    withRedirects nested line c
  | .keyword "for" =>
    let c ← readEach self nested line
    requireKeyword (← token nested {}) "done"
    withRedirects nested line c
  | .keyword "case" => withRedirects nested line (← readSelect self nested line)
  | .keyword k =>
    if k = "while" ∨ k = "until" then
      let test ← self .block
      requireKeyword (← token nested {}) "do"
      let body ← self .block
      requireKeyword (← token nested {}) "done"
      withRedirects nested line (.loop (k = "until") test body)
    else unexpected t none
  | _ => unexpected t none

/-- Commands that are joined by pipes, whose first token has been read. -/
def readPipeline (self : Goal → Reader Command) (nested : Nested) (t : Token) :
    Reader Command := do
  let negated := t.isKeyword "!"
  let first ← if negated then token nested .start else pure t
  let first ← readCommand self nested first
  let c ← repeatUntil (fun (stages : List Command) => do
    match ← token nested {} with
    | .pipe =>
      let next ← token nested .startBelow
      pure (.inl ((← readCommand self nested next) :: stages))
    | t =>
      putBack t
      pure (.inr (match stages with
        | [c] => c
        | _ => .pipeline stages.reverse))) (← bound) [first]
  pure (if negated then .negation c else c)

/-- Commands that depend on the success of those before them, whose first token has been read. -/
def readChain (self : Goal → Reader Command) (nested : Nested) (t : Token) : Reader Command := do
  let first ← readPipeline self nested t
  repeatUntil (fun (c : Command) => do
    let next : Reader Command := do readPipeline self nested (← token nested .startBelow)
    match ← token nested {} with
    | .andThen => pure (.inl (.join .success c (← next)))
    | .orElse => pure (.inl (.join .failure c (← next)))
    | t => putBack t; pure (.inr c)) (← bound) first

/-- Two commands, one after the other. -/
def both : Command → Command → Command
  | .nothing, c => c
  | c, d => .join .always c d

/-- Commands one after the other: what has been read, and whether there is something. -/
def readCommands (self : Goal → Reader Command) (nested : Nested) (goal : Goal) :
    Reader Command := do
  let step (x : Command × Bool) : Reader (Command × Bool ⊕ Command) := do
    let (done, started) := x
    let stop (t : Token) : Reader (Command × Bool ⊕ Command) := do
      putBack t
      pure (.inr done)
    match ← token nested { TokenPlace.start with lines := goal ≠ .line } with
    | .newline => readDocuments nested; pure (.inr done)
    | .endOfText => readDocuments nested; stop .endOfText
    | t =>
      if goal ≠ .line ∧ (started ∨ goal = .body) ∧ t.closes then stop t
      else
        let line := (← get).line
        let c ← readChain self nested t
        match ← token nested {} with
        | .background => pure (.inl (both done (.background line c), true))
        | .semicolon => pure (.inl (both done c, true))
        | .newline => putBack .newline; pure (.inl (both done c, true))
        | .endOfText =>
          readDocuments nested
          putBack .endOfText
          pure (.inr (both done c))
        | t =>
          if goal = .line then unexpected t none
          else putBack t; pure (.inr (both done c))
  repeatUntil step (← bound) (.nothing, false)

/-- How commands in words are read, with a reader for commands. -/
def nestedBy (self : Goal → Reader Command) : Nested where
  toParen := do
    let body ← self .body
    let t ← token ⟨pure .nothing, pure .nothing⟩ {}
    require t (fun | .closeParen => true | _ => false) (quotedName ")")
    pure body
  toEnd := self .body

/-- What is read for a goal, with a reader for the parts. -/
def readWith (self : Goal → Reader Command) (goal : Goal) : Reader Command := do
  match goal with
  | .command => readCommand self (nestedBy self) (← token (nestedBy self) .startBelow)
  | goal => readCommands self (nestedBy self) goal

/-- What is read for a goal, with a bound on how deep commands lie in each other. -/
def readGoal : Nat → Goal → Reader Command
  | 0, _ => fail "too deep"
  | depth + 1, goal => readWith (readGoal depth) goal

end Reader

/-- The commands of the next line; `none` at the end of the script. -/
def Source.nextCommand (s : Source) : Except SyntaxError (Option Command × Source) :=
  match (Reader.readGoal (s.size * s.growth + 2) .line).run { s with chained := false } with
  | .error e => .error e
  | .ok (c, s) =>
    let c? := match c with
      | .nothing => if s.atEnd then none else some .nothing
      | c => some c
    .ok (c?, { s with unbegun := s.linesLeft })

/-- The word that a whole text is, taken as between double quotes. -/
def Source.wholeWord (s : Source) : Except SyntaxError (Word × Source) :=
  (Reader.readWhole (Reader.nestedBy (Reader.readGoal (s.size * s.growth + 2)))).run s

end ForeignCall.Script
