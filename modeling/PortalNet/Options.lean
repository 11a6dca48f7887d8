import PortalNet.Json.Literal
import PortalNet.Settings

/-! # Options

What the program can be told when it is started: which part it plays, and the settings of that part.
An option is a name followed by a value, apart from the one that turns a warning off.
-/

namespace PortalNet

inductive Role where
  | server (settings : Settings)
  | relay (settings : RelaySettings)

inductive OptionError where
  | roleMissing
  | unknownOption (option : String)
  | valueMissing (option : String)
  | invalidValue (option value : String)
  deriving DecidableEq

def OptionError.message : OptionError → String
  | roleMissing => "Say whether to run a server or a relay"
  | unknownOption option => s!"There is no option {option}"
  | valueMissing option => s!"The option {option} needs a value"
  | invalidValue option value => s!"The option {option} cannot be {value}"

namespace Options

/-- The host and the port to listen at. -/
structure Place where
  host : String := "127.0.0.1"
  port : Nat

def Place.text (p : Place) : String :=
  s!"{p.host}:{p.port}"

def whole? (limit : Nat) (value : String) : Option Nat := do
  let n ← value.toNat?
  if n < limit then some n else none

def real? (value : String) : Option Double := do
  return (← (← Literal.ofChars? value.toList).value?).toDouble

/-- Settings of a server while its options are read. -/
structure Server where
  place : Place := { port := 25600 }
  settings : Settings := {}
  /-- Worlds named so far, which take the place of the usual ones. -/
  worlds : List String := []

namespace Server

def set (o : Server) (option value : String) : Except OptionError Server :=
  let s := o.settings
  let valid := fun {α : Type} (read : Option α) (use : α → Server) =>
    match read with
    | some a => (.ok (use a) : Except OptionError Server)
    | none => .error (.invalidValue option value)
  match option with
  | "--host" => return { o with place := { o.place with host := value } }
  | "-p" | "--port" =>
    valid (whole? (2 ^ 16) value) fun port => { o with place := { o.place with port } }
  | "-r" | "--relay" => return { o with settings := { s with relay := some value } }
  | "-n" | "--server-name" => return { o with settings := { s with name := value } }
  | "-t" | "--tick-rate" =>
    valid (whole? (2 ^ 32) value) fun rate =>
      { o with settings := { s with tick := tickDuration (.ofNat rate) } }
  | "--portals-file" => return { o with settings := { s with file := value } }
  | "-w" | "--world" => return { o with worlds := o.worlds ++ [value] }
  | "--activation-distance" =>
    valid (real? value) fun activation => { o with settings := { s with activation } }
  | "--view-distance" => valid (real? value) fun view => { o with settings := { s with view } }
  | "-m" | "--max-players" =>
    valid (whole? (2 ^ 64) value) fun maxPlayers => { o with settings := { s with maxPlayers } }
  | _ => throw (.unknownOption option)

def read (o : Server) : List String → Except OptionError Server
  | [] => return o
  | "--no-missing-selection-warning" :: rest =>
    read { o with settings := { o.settings with warnOnMissingSelection := false } } rest
  | [option] => throw (.valueMissing option)
  | option :: value :: rest => do read (← o.set option value) rest

def finish (o : Server) : Settings :=
  { o.settings with
    bind := o.place.text
    worlds := if o.worlds = [] then o.settings.worlds else o.worlds }

end Server

structure Relay where
  place : Place := { port := 25500 }
  settings : RelaySettings := {}

namespace Relay

def set (o : Relay) (option value : String) : Except OptionError Relay :=
  match option with
  | "--host" => return { o with place := { o.place with host := value } }
  | "-p" | "--port" =>
    match whole? (2 ^ 16) value with
    | some port => return { o with place := { o.place with port } }
    | none => throw (.invalidValue option value)
  | "--server-timeout-secs" =>
    match whole? (2 ^ 64) value with
    | some n => return { o with settings := { o.settings with serverTimeout := n * second } }
    | none => throw (.invalidValue option value)
  | _ => throw (.unknownOption option)

def read (o : Relay) : List String → Except OptionError Relay
  | [] => return o
  | [option] => throw (.valueMissing option)
  | option :: value :: rest => do read (← o.set option value) rest

def finish (o : Relay) : RelaySettings :=
  { o.settings with bind := o.place.text }

end Relay

end Options

/-- The part that the arguments of the program ask for. -/
def Role.ofArguments : List String → Except OptionError Role
  | "server" :: rest => (Options.Server.read {} rest).map fun o => .server o.finish
  | "relay" :: rest => (Options.Relay.read {} rest).map fun o => .relay o.finish
  | _ => throw .roleMissing

end PortalNet
