import Handoff.Client
import Handoff.Loopback.Registry
import Handoff.Server

/-!
The arguments of the command line. They are taken one by one from the left, and the first that is
wrong, or that asks for help, decides. Flags may stand before the command and, once more each,
behind it.
-/
namespace Handoff.CommandLine

inductive Verb where
  | serve | send | pair
  deriving DecidableEq, Repr

def Verb.ofWord? (w : String) : Option Verb :=
  if w = "serve" then some .serve
  else if w = "send" then some .send
  else if w = "pair" then some .pair
  else none

/-- The options that take a value. -/
inductive Key where
  | cid | port | backlog | payload
  deriving DecidableEq, Repr

def Key.ofWord? (w : String) : Option Key :=
  if w = "cid" then some .cid
  else if w = "port" then some .port
  else if w = "backlog" then some .backlog
  else if w = "payload" then some .payload
  else none

/-- Which options a command has. -/
def Verb.has : Verb → Key → Bool
  | _, .cid | _, .port => true
  | v, .backlog => v == .serve
  | v, .payload => v != .serve

/-- The flags seen so far at one place. What `debug` asks for is no part of any answer. -/
structure Flags where
  debug : Bool
  json : Bool
  deriving DecidableEq, Repr

def Flags.clear : Flags := ⟨false, false⟩

/-- A flag stands once. -/
def Flags.setDebug? (f : Flags) : Option Flags :=
  if f.debug then none else some { f with debug := true }

def Flags.setJson? (f : Flags) : Option Flags :=
  if f.json then none else some { f with json := true }

/-- The option values seen so far. -/
structure Values where
  cid : Option UInt32
  port : Option UInt32
  backlog : Option UInt32
  payload : Option String
  deriving DecidableEq, Repr

def Values.empty : Values := ⟨none, none, none, none⟩

/-- A number of 32 bits in decimal digits, after a plus or, for zero, a minus. -/
def readNumber? (s : String) : Option UInt32 :=
  let digits (cs : List Char) : Option Nat :=
    if cs ≠ [] ∧ cs.all Char.isDigit then
      some (cs.foldl (fun n c => n * 10 + (c.toNat - 48)) 0)
    else none
  let upTo (limit : Nat) : Option Nat → Option UInt32
    | some n => if n ≤ limit then some (.ofNat n) else none
    | none => none
  match s.toList with
  | '+' :: cs => upTo 4294967295 (digits cs)
  | '-' :: cs => upTo 0 (digits cs)
  | cs => upTo 4294967295 (digits cs)

/-- Gives an option its value, which it may have once. -/
def Values.set? (v : Values) (k : Key) (s : String) : Option Values :=
  match k with
  | .cid => if v.cid.isSome then none else (readNumber? s).map fun n => { v with cid := n }
  | .port =>
    if v.port.isSome then none else (readNumber? s).map fun n => { v with port := n }
  | .backlog =>
    if v.backlog.isSome then none else (readNumber? s).map fun n => { v with backlog := n }
  | .payload => if v.payload.isSome then none else some { v with payload := s }

inductive Command where
  | serve (c : Server.Config)
  | send (c : Client.Config)
  | pair (cid port : UInt32) (payload : List UInt8)
  deriving DecidableEq, Repr

/-- What a process is asked to do. -/
structure Invocation where
  json : Bool
  command : Command
  deriving DecidableEq, Repr

inductive Parsed where
  | run (i : Invocation)
  | help
  | refused
  deriving DecidableEq, Repr

def bytesOf (s : String) : List UInt8 := s.toUTF8.toList

/-- The command with the values given, and defaults for the others. -/
def Verb.command (verb : Verb) (v : Values) : Command :=
  let port := v.port.getD meetingPort
  let payload := (v.payload.map bytesOf).getD Client.defaultPayload
  match verb with
  | .serve =>
    .serve { Server.Config.at (v.cid.getD Server.defaultCid) port with
      backlog := v.backlog.getD Server.defaultBacklog }
  | .send => .send { Client.Config.at (v.cid.getD Client.defaultCid) port with payload }
  | .pair => .pair (v.cid.getD Loopback.defaultCid) port payload

/-- What a word of the command line is. -/
inductive Word where
  /-- Nothing behind it is an option any more. -/
  | separator
  | long (name : String) (value : Option String)
  | short (letters : List Char)
  | plain
  deriving DecidableEq, Repr

def Word.ofString (s : String) : Word :=
  match s.toList with
  | ['-', '-'] => .separator
  | '-' :: '-' :: cs =>
    let name := cs.takeWhile fun c => c != '='
    match cs.dropWhile fun c => c != '=' with
    | [] => .long (String.ofList name) none
    | _ :: value => .long (String.ofList name) (some (String.ofList value))
  | '-' :: c :: cs => .short (c :: cs)
  | _ => .plain

/-- Whether a word may be the value of the option before it: a lone minus may, options may not. -/
def standsAsValue (s : String) : Bool := Word.ofString s == .plain

/-- What the letters behind one minus come to. -/
inductive Letters where
  | flags (f : Flags)
  | help
  | refused
  /-- The port, by the value written with it or else the next word. -/
  | port (f : Flags) (value : Option String)
  deriving DecidableEq, Repr

def readLetters (withPort : Bool) (f : Flags) : List Char → Letters
  | [] => .flags f
  | 'd' :: cs =>
    match f.setDebug? with
    | some f => readLetters withPort f cs
    | none => .refused
  | 'h' :: _ => .help
  | 'p' :: cs =>
    if withPort then
      match cs with
      | [] => .port f none
      | '=' :: cs => .port f (some (String.ofList cs))
      | cs => .port f (some (String.ofList cs))
    else .refused
  | _ :: _ => .refused

/-- The flags before a command and behind it, taken together. -/
def finish (outer f : Flags) (verb : Verb) (v : Values) : Parsed :=
  .run ⟨outer.json || f.json, verb.command v⟩

/-- Reads what stands behind a command. `wanted` is an option that still waits for its value. -/
def readOptions (outer : Flags) (verb : Verb) (f : Flags) (v : Values) (wanted : Option Key) :
    List String → Parsed
  | [] => if wanted.isSome then .refused else finish outer f verb v
  | w :: ws =>
    match wanted with
    | some k =>
      if standsAsValue w then
        match v.set? k w with
        | some v => readOptions outer verb f v none ws
        | none => .refused
      else .refused
    | none =>
      match Word.ofString w with
      | .separator => if ws = [] then finish outer f verb v else .refused
      | .plain => .refused
      | .long "help" none => .help
      | .long "debug" none =>
        match f.setDebug? with
        | some f => readOptions outer verb f v none ws
        | none => .refused
      | .long "json" none =>
        match f.setJson? with
        | some f => readOptions outer verb f v none ws
        | none => .refused
      | .long name value =>
        match Key.ofWord? name with
        | none => .refused
        | some k =>
          if verb.has k then
            match value with
            | none => readOptions outer verb f v (some k) ws
            | some s =>
              match v.set? k s with
              | some v => readOptions outer verb f v none ws
              | none => .refused
          else .refused
      | .short letters =>
        match readLetters true f letters with
        | .flags f => readOptions outer verb f v none ws
        | .help => .help
        | .refused => .refused
        | .port f none => readOptions outer verb f v (some .port) ws
        | .port f (some s) =>
          match v.set? .port s with
          | some v => readOptions outer verb f v none ws
          | none => .refused

/-- Whether help can be asked for about these words. -/
def isHelpTopic : List String → Bool
  | [] => true
  | [w] => w == "help" || (Verb.ofWord? w).isSome
  | _ => false

/-- Reads what stands before the command, and the command. -/
def readFrom (f : Flags) : List String → Parsed
  | [] => .refused
  | w :: ws =>
    match Word.ofString w with
    | .separator => .refused
    | .long "help" none => .help
    | .long "debug" none =>
      match f.setDebug? with
      | some f => readFrom f ws
      | none => .refused
    | .long "json" none =>
      match f.setJson? with
      | some f => readFrom f ws
      | none => .refused
    | .long .. => .refused
    | .short letters =>
      match readLetters false f letters with
      | .flags f => readFrom f ws
      | .help => .help
      | _ => .refused
    | .plain =>
      match Verb.ofWord? w with
      | some verb => readOptions f verb .clear .empty none ws
      | none => if w = "help" ∧ isHelpTopic ws then .help else .refused

def parse (args : List String) : Parsed := readFrom .clear args

end Handoff.CommandLine
