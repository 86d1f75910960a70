import LeaseRegistry.Config.CommandLine
import LeaseRegistry.Config.ServerConfig
import LeaseRegistry.Text.Hex

/-!
# The command line of the server

Reads the options, checks them and says what the server would be started with. Options that cannot
be read end the program with status 2, values that cannot be used with status 1.
-/

namespace LeaseRegistry

def ArgumentError.message : ArgumentError → String
  | helpWanted => "help was asked for"
  | unknownWord => "unexpected argument"
  | repeated => "an option was given more than once"
  | invalidValue => "an option has no value, or one that is not possible"
  | surplusValue => "a value was given to an option that has none"
  | unreadableValue => "a value could not be read"

/-- One line for each option. -/
def usage : String :=
  "\n".intercalate <| "Service registry server with peer replication" ::
    Setting.all.map fun s =>
      "  --" ++ s.long ++ (if s.takesValue then " <value>" else "") ++
        (match s.envName? with
          | some name => "  [" ++ name ++ "]"
          | none => "")

/-- One line for each value that matters to others. -/
def ServerConfig.summary (c : ServerConfig) : String :=
  "\n".intercalate ["Server ID: " ++ c.serverId.text, "Listen: " ++ c.listen,
    "Advertised: " ++ c.advertised, "Peers: " ++ ", ".intercalate c.peers]

def plainServerId : ServerId := ⟨"registry", by decide +kernel⟩

/-- An id of random digits, if they make one. -/
def freshServerId (digits : String) : ServerId :=
  (ServerId.ofText digits).toOption.getD plainServerId

end LeaseRegistry

open LeaseRegistry

def main (words : List String) : IO UInt32 := do
  let environment ← Setting.all.filterMapM fun s => do
    match s.envName? with
    | none => return none
    | some name => return (← IO.getEnv name).map (name, ·)
  let bytes ← IO.getRandomBytes 16
  let fresh := freshServerId (Text.Hex.encode bytes.toList)
  match CommandLine.read words fun name => (environment.find? (·.1 = name)).map (·.2) with
  | .error .helpWanted =>
    IO.println usage
    return 0
  | .error e =>
    IO.eprintln ("error: " ++ e.message)
    return 2
  | .ok arguments =>
    match ServerConfig.ofArguments fresh arguments with
    | .error e =>
      IO.eprintln ("Error: " ++ e.message)
      return 1
    | .ok config =>
      IO.println config.summary
      return 0
