import Courier.Word

/-!
The words of a command line. Options take one value, after an equals sign or as the next word, and
are given at most once at each level; what is given behind the command wins over what is given in
front of it. Reading stops at the first word that cannot be understood, or where help is asked for.
A value that is a word of its own is looked at when the next option is met, or at the end. So what
stands behind the command is read before the last value in front of it is looked at.
-/

namespace Courier
namespace CommandLine

structure SendOrder where
  dataFile : String
  modFile : Option String := none
  out : String
  pipe : String := "pipe"
  region : Int := 1
  timeoutSeconds : Nat := 60
  deriving DecidableEq, Repr

inductive Command
  | check
  | send (order : SendOrder)
  deriving DecidableEq, Repr

structure Invocation where
  command : Command
  config : Option String := none
  logLevel : Option String := none
  deriving DecidableEq, Repr

inductive Topic
  | program
  | check
  | send
  | help
  deriving DecidableEq, Repr

inductive Halt
  | help (topic : Topic)
  | version
  | misuse
  deriving DecidableEq, Repr

/-- What the value of an option has to be. -/
inductive ValueKind
  | text
  | path
  | int32
  | word
  deriving DecidableEq, Repr

def digits? (s : List Char) : Option Nat :=
  if !s.isEmpty && s.all Char.isDigit then (String.ofList s).toNat? else none

/-- A sign is allowed in front of the digits. -/
def integer? (s : String) : Option Int :=
  match s.toList with
  | '-' :: rest => (digits? rest).map fun n => -(n : Int)
  | '+' :: rest => (digits? rest).map Int.ofNat
  | digits => (digits? digits).map Int.ofNat

def int32? (s : String) : Option Int :=
  integer? s >>= fun n =>
    if -(Nat.pow 2 31 : Nat) ≤ n && n < (Nat.pow 2 31 : Nat) then some n else none

def word? (s : String) : Option Nat :=
  if s.startsWith "-" then none
  else integer? s >>= fun n => if n < Word.size then some n.toNat else none

def ValueKind.admits (s : String) : ValueKind → Bool
  | .text => true
  | .path => s != ""
  | .int32 => (int32? s).isSome
  | .word => (word? s).isSome

structure OptionSpec where
  name : String
  letter : Option Char := none
  kind : ValueKind := .path
  deriving DecidableEq, Repr

/-- Options that stand in front of the command or behind it. -/
def sharedOptions : List OptionSpec :=
  [{ name := "config", letter := some 'c' },
   { name := "log-level", letter := some 'l', kind := .text }]

def sendOptions : List OptionSpec :=
  [{ name := "data-file" }, { name := "mod-file" }, { name := "out" },
   { name := "pipe", kind := .text }, { name := "region", kind := .int32 },
   { name := "timeout-secs", kind := .word }]

abbrev Given := List (String × String)

/-- A place in the command line: the options that are known there, and what help is about. -/
structure Level where
  topic : Topic
  options : List OptionSpec
  deriving DecidableEq, Repr

def topLevel : Level := { topic := .program, options := sharedOptions }

def checkLevel : Level := { topic := .check, options := sharedOptions }

def sendLevel : Level := { topic := .send, options := sharedOptions ++ sendOptions }

/-- Records a value that is given for the first time and can be read. -/
def Given.add? (given : Given) (o : OptionSpec) (value : String) : Except Halt Given :=
  if (given.lookup o.name).isSome || !o.kind.admits value then .error .misuse
  else .ok (given ++ [(o.name, value)])

/-- A word that can be the value of the option before it. -/
def isValue (s : String) : Bool := !s.startsWith "-" || s = "-"

/-- How a word is to be understood. -/
inductive Token
  | endOfOptions
  | option (o : OptionSpec) (value : Option String)
  | halt (h : Halt)
  | word (s : String)

/-- The text behind an equals sign, if there is one. -/
def afterEquals (s : List Char) : Option String :=
  match s with
  | '=' :: rest => some (String.ofList rest)
  | _ => none

/-- A word that begins with two dashes. -/
def longToken (level : Level) (s : List Char) : Token :=
  let name := String.ofList (s.takeWhile (· ≠ '='))
  let value := afterEquals (s.dropWhile (· ≠ '='))
  match level.options.find? fun o => o.name = name with
  | some o => .option o value
  | none =>
      if value.isSome then .halt .misuse
      else if name = "help" then .halt (.help level.topic)
      else if name = "version" && level.topic = .program then .halt .version
      else .halt .misuse

/-- A word that begins with one dash. -/
def shortToken (level : Level) (letter : Char) (s : List Char) : Token :=
  match level.options.find? fun o => o.letter = some letter with
  | some o =>
      .option o (if s.isEmpty then none else some ((afterEquals s).getD (String.ofList s)))
  | none =>
      if letter = 'h' then .halt (.help level.topic)
      else if letter = 'V' && level.topic = .program then .halt .version
      else .halt .misuse

def token (level : Level) (s : String) : Token :=
  match s.toList with
  | ['-', '-'] => .endOfOptions
  | '-' :: '-' :: rest => longToken level rest
  | '-' :: letter :: rest => shortToken level letter rest
  | _ => .word s

/-- The options of a level as far as they are read. -/
structure Progress where
  given : Given := []
  /-- The last option, if its value has not been looked at. -/
  last : Option (OptionSpec × String) := none
  deriving DecidableEq, Repr

def Progress.settle (p : Progress) : Except Halt Given :=
  match p.last with
  | none => .ok p.given
  | some (o, value) => p.given.add? o value

/-- Reads options until a word that is none. Returns that word and those behind it. -/
def readOptions (level : Level) (p : Progress) :
    List String → Except Halt (Progress × Option (String × List String))
  | [] => .ok (p, none)
  | s :: rest =>
      match token level s with
      | .endOfOptions => if rest.isEmpty then .ok (p, none) else .error .misuse
      | .halt h => p.settle >>= fun _ => .error h
      | .word s => .ok (p, some (s, rest))
      | .option o (some value) => do
          let given ← p.settle
          readOptions level { given := ← given.add? o value } rest
      | .option o none =>
          match rest with
          | value :: rest =>
              if isValue value then do
                readOptions level { given := ← p.settle, last := some (o, value) } rest
              else .error .misuse
          | [] => .error .misuse

/-- The options of a command, which stands in front of no other word. -/
def readCommand (level : Level) (args : List String) : Except Halt Given :=
  match readOptions level {} args with
  | .ok (p, none) => p.settle
  | .ok (_, some _) => .error .misuse
  | .error h => .error h

def sendOrder? (given : Given) : Except Halt SendOrder :=
  match given.lookup "data-file", given.lookup "out" with
  | some dataFile, some out =>
      .ok {
        dataFile := dataFile
        modFile := given.lookup "mod-file"
        out := out
        pipe := (given.lookup "pipe").getD "pipe"
        region := ((given.lookup "region") >>= int32?).getD 1
        timeoutSeconds := ((given.lookup "timeout-secs") >>= word?).getD 60 }
  | _, _ => .error .misuse

def invocation (front behind : Given) (command : Command) : Invocation :=
  let value (name : String) : Option String := (behind.lookup name).or (front.lookup name)
  { command, config := value "config", logLevel := value "log-level" }

/-- What help was asked for by name. -/
def helpTopic : List String → Halt
  | [] => .help .program
  | ["check"] => .help .check
  | ["send"] => .help .send
  | ["help"] => .help .help
  | _ => .misuse

def parse (args : List String) : Except Halt Invocation := do
  match ← readOptions topLevel {} args with
  | (_, none) => throw .misuse
  | (front, some ("check", rest)) =>
      let behind ← readCommand checkLevel rest
      return invocation (← front.settle) behind .check
  | (front, some ("send", rest)) =>
      let behind ← readCommand sendLevel rest
      let order ← sendOrder? behind
      return invocation (← front.settle) behind (.send order)
  | (_, some ("help", rest)) => throw (helpTopic rest)
  | (_, some _) => throw .misuse

end CommandLine
end Courier
