import Readback.Process.Command

/-!
# Simple shell scripts

Scripts that stand in for a compiler: simple commands one after the other, with quotes, backslashes,
the parameters of the script, and output sent to the error output. Only what such a script writes to
its error output and how it ends is kept.

## Main definitions

* `Script.tokens` — the words of a script and the ends of its commands
* `Script.run` — what a script comes to
-/

namespace Readback.Script

/-- A part of a word: text as it stands, or the value of a parameter. Inside double quotes a value
is not split at blanks. -/
inductive Piece
  | text (c : List Char)
  | parameter (name : Char) (quoted : Bool)
  deriving DecidableEq, Repr

/-- A word, the end of a command, or the sign that sends output to the error output. -/
inductive Token
  | word (pieces : List Piece)
  | endOfCommand
  | toErrorOutput
  deriving DecidableEq, Repr

/-! ## Reading a script -/

/-- The quotes that the reader is in. -/
inductive Quotes
  | none
  | single
  | double
  deriving DecidableEq, Repr

/-- The tokens read so far, latest first, and the pieces of the word at hand, latest first. -/
structure Reader where
  tokens : List Token := []
  word : Option (List Piece) := none

namespace Reader

/-- Adds a piece to the word at hand. -/
def piece (r : Reader) (p : Piece) : Reader := { r with word := some (p :: r.word.getD []) }

/-- Adds a character to the word at hand. -/
def char (r : Reader) (c : Char) : Reader := r.piece (.text [c])

/-- Ends the word at hand. -/
def endWord (r : Reader) : Reader :=
  match r.word with
  | none => r
  | some ps => { tokens := .word ps.reverse :: r.tokens }

/-- Ends the word at hand and adds another token. -/
def token (r : Reader) (t : Token) : Reader := { tokens := t :: r.endWord.tokens }

/-- Drops the number of the output from in front of a redirection. -/
def withoutOutputNumber (r : Reader) : Reader :=
  if r.word = some [.text ['1']] then { r with word := none } else r

end Reader

/-- The names of parameters: positions, all arguments, their number, the last status, and the
process itself. -/
def isParameter (c : Char) : Bool := c.isDigit || "@*#?$".toList.contains c

/-- Reads the characters of a script. -/
def readChars (q : Quotes) (r : Reader) : List Char → Reader
  | [] => r.endWord
  | '$' :: c :: rest =>
    if q ≠ .single ∧ isParameter c then readChars q (r.piece (.parameter c (q = .double))) rest
    else readChars q (r.char '$') (c :: rest)
  | '\\' :: c :: rest =>
    match q with
    -- a backslash at the end of a line joins it with the next one
    | .none => readChars q (if c = '\n' then r else r.char c) rest
    | .double =>
      if "$\"\\".toList.contains c then readChars q (r.char c) rest
      else readChars q (r.char '\\') (c :: rest)
    | .single => readChars q (r.char '\\') (c :: rest)
  | '>' :: '&' :: '2' :: rest =>
    if q = .none then readChars q (r.withoutOutputNumber.token .toErrorOutput) rest
    else readChars q (((r.char '>').char '&').char '2') rest
  | c :: rest =>
    match q with
    | .single =>
      if c = '\'' then readChars .none r rest else readChars q (r.char c) rest
    | .double =>
      if c = '"' then readChars .none r rest else readChars q (r.char c) rest
    | .none =>
      if c = ';' ∨ c = '\n' then readChars q (r.token .endOfCommand) rest
      else if c = ' ' ∨ c = '\t' then readChars q r.endWord rest
      -- quotes make a word even if there is nothing between them
      else if c = '\'' then readChars .single (r.piece (.text [])) rest
      else if c = '"' then readChars .double (r.piece (.text [])) rest
      else readChars q (r.char c) rest

/-- The words of a script and the ends of its commands. -/
def tokens (script : String) : List Token :=
  ((readChars .none {} script.toList).token .endOfCommand).tokens.reverse

/-! ## Words -/

/-- A running script: its name and arguments, the status of its last command, and what went to the
error output. -/
structure State where
  name : String
  args : List String
  status : Int := 0
  errorOutput : List UInt8 := []

/-- The value of a parameter. -/
def State.parameter (s : State) (name : Char) : String :=
  if name = '@' ∨ name = '*' then " ".intercalate s.args
  else if name = '#' then toString s.args.length
  else if name = '?' then toString s.status
  -- the number of the process is not known; `kill` takes it as it is written
  else if name = '$' then "$$"
  else if name = '0' then s.name
  else s.args.getD (name.toNat - '1'.toNat) ""

/-- The words of a value that is not in quotes. -/
def fields (value : String) : List String :=
  ((value.toList.splitBy fun a b => (a = ' ') = (b = ' ')).filter (·.head? ≠ some ' ')).map
    String.ofList

/-- Puts words behind others: the first continues the last word so far. -/
def joinWords (done words : List String) : List String :=
  match done.getLast?, words with
  | some last, first :: more => done.dropLast ++ (last ++ first) :: more
  | _, _ => done ++ words

/-- The words that a word of the script stands for. -/
def State.expand (s : State) (pieces : List Piece) : List String :=
  pieces.foldl (fun done p => joinWords done <|
    match p with
    | .text cs => [String.ofList cs]
    -- in quotes every argument is a word of its own
    | .parameter '@' true => s.args
    | .parameter name true => [s.parameter name]
    | .parameter name false => fields (s.parameter name)) []

/-! ## Commands -/

/-- What the letter behind a backslash stands for. -/
def escapeLetter? (c : Char) : Option Char :=
  ("abfnrtv\\".toList.zip "\x07\x08\x0c\n\x0d\t\x0b\\".toList).lookup c

/-- The bytes of a text. -/
def bytes (s : String) : List UInt8 := s.toUTF8.toList

/-- Text with backslash escapes: letters, and numbers of up to three octal digits. The first `skip`
characters have been used up already. -/
def unescape : Nat → List Char → List UInt8
  | _, [] => []
  | skip + 1, _ :: rest => unescape skip rest
  | 0, '\\' :: c :: rest =>
    let digits := ((c :: rest).take 3).takeWhile fun d => '0' ≤ d ∧ d ≤ '7'
    match escapeLetter? c, digits with
    | some e, _ => bytes e.toString ++ unescape 1 (c :: rest)
    | none, [] => bytes "\\" ++ unescape 0 (c :: rest)
    | none, ds =>
      .ofNat (ds.foldl (fun n d => n * 8 + (d.toNat - '0'.toNat)) 0) ::
        unescape ds.length (c :: rest)
  | 0, c :: rest => bytes c.toString ++ unescape 0 rest

/-- Fills arguments into the places of a format. -/
def format : List UInt8 → List String → List UInt8
  | 37 :: 37 :: rest, args => 37 :: format rest args
  | 37 :: _ :: rest, args => bytes (args.headD "") ++ format rest args.tail
  | b :: rest, args => b :: format rest args
  | [], _ => []

/-- How many places a format has for arguments. -/
def places : List UInt8 → Nat
  | 37 :: 37 :: rest => places rest
  | 37 :: _ :: rest => places rest + 1
  | _ :: rest => places rest
  | [] => 0

/-- Uses a format again, at most `more` times, while arguments are left over. -/
def formatAll (text : List UInt8) : Nat → List String → List UInt8
  | 0, args => format text args
  | more + 1, args =>
    let left := args.drop (places text)
    format text args ++ if left.isEmpty then [] else formatAll text more left

/-- What a format prints for arguments. One without places is used once. -/
def printFormat (text : List UInt8) (args : List String) : List UInt8 :=
  formatAll text (if places text = 0 then 0 else args.length) args

/-- The numbers of signals by name. -/
def signalNumber? (name : String) : Option Int :=
  [("HUP", 1), ("INT", 2), ("QUIT", 3), ("ILL", 4), ("ABRT", 6), ("FPE", 8), ("KILL", 9),
    ("SEGV", 11), ("PIPE", 13), ("ALRM", 14), ("TERM", 15)].lookup name <|> name.toInt?

/-- What a command does: it sends bytes to its output and sets a status, or it ends the script. -/
inductive Effect
  | goOn (output : List UInt8) (status : Int)
  | stop (status : ProcessStatus)

/-- What a command with arguments does. Commands that are not known fail. -/
def State.effect (s : State) : List String → Effect
  | "echo" :: "-n" :: args => .goOn (unescape 0 (" ".intercalate args).toList) 0
  | "echo" :: args => .goOn (unescape 0 (" ".intercalate args).toList ++ bytes "\n") 0
  | "printf" :: text :: args => .goOn (printFormat (unescape 0 text.toList) args) 0
  | ["exit"] => .stop (.exited s.status)
  | "exit" :: code :: _ => .stop (.exited ((code.toInt?.getD 2) % 256))
  | ["kill", "$$"] => .stop (.signaled 15)
  | ["kill", option, "$$"] =>
    match signalNumber? (option.drop 1).toString with
    | some n => .stop (.signaled n)
    | none => .goOn [] 1
  | ["kill", "-s", name, "$$"] =>
    match signalNumber? name with
    | some n => .stop (.signaled n)
    | none => .goOn [] 1
  | ["false"] => .goOn [] 1
  | "true" :: _ => .goOn [] 0
  | ":" :: _ => .goOn [] 0
  | [] => .goOn [] s.status
  | command :: _ => .goOn (bytes (s.name ++ ": " ++ command ++ ": not found\n")) 127

/-- Runs the commands of a script. `words` are those of the command at hand, and `toError` tells
whether its output goes to the error output. -/
def runTokens (words : List String) (toError : Bool) (s : State) : List Token → ProcessOutcome
  | [] => .ended (.exited s.status) s.errorOutput
  | .word pieces :: rest => runTokens (words ++ s.expand pieces) toError s rest
  | .toErrorOutput :: rest => runTokens words true s rest
  | .endOfCommand :: rest =>
    match s.effect words with
    | .stop status => .ended status s.errorOutput
    | .goOn output status =>
      -- the shell itself tells of an unknown command, on the error output
      let heard := if toError || status = 127 then output else []
      runTokens [] false { s with status, errorOutput := s.errorOutput ++ heard } rest

/-- What a script comes to when it is run under a name with arguments. -/
def run (script name : String) (args : List String) : ProcessOutcome :=
  runTokens [] false { name, args } (tokens script)

end Readback.Script
