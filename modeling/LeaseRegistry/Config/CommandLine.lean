import LeaseRegistry.Config.Arguments
import LeaseRegistry.Decimal.Numeral

/-!
# The command line

Options are given on the command line or, where they are not, by variables of the environment. A
value is part of the option's own word or the word after it. A value in a word of its own is looked
at only when the next option begins or the words end, so an unknown word after it is reported
first.
-/

namespace LeaseRegistry

inductive ArgumentError where
  | helpWanted
  | unknownWord
  | repeated
  /-- An option without its value, or a value for which only some words are possible. -/
  | invalidValue
  | surplusValue
  | unreadableValue
  deriving DecidableEq, Repr

inductive Setting where
  | serverId
  | listen
  | advertise
  | peer
  | appName
  | threshold
  | preservationOff
  | evictionInterval
  | evictionDelay
  | syncWait
  | heartbeatInterval
  | heartbeatMisses
  | peerTimeout
  | peerRetries
  | verbose
  | help
  deriving DecidableEq, Repr

namespace Setting

def all : List Setting :=
  [serverId, listen, advertise, peer, appName, threshold, preservationOff, evictionInterval,
   evictionDelay, syncWait, heartbeatInterval, heartbeatMisses, peerTimeout, peerRetries, verbose,
   help]

def long : Setting → String
  | serverId => "server-id"
  | listen => "listen"
  | advertise => "advertise"
  | peer => "peer"
  | appName => "app-name"
  | threshold => "renewal-percent-threshold"
  | preservationOff => "disable-self-preservation"
  | evictionInterval => "eviction-interval-secs"
  | evictionDelay => "eviction-delay-secs"
  | syncWait => "wait-time-when-sync-empty-secs"
  | heartbeatInterval => "heartbeat-interval-secs"
  | heartbeatMisses => "heartbeat-misses"
  | peerTimeout => "peer-timeout-ms"
  | peerRetries => "peer-retries"
  | verbose => "verbose"
  | help => "help"

def short? : Setting → Option Char
  | listen => some 'l'
  | verbose => some 'v'
  | help => some 'h'
  | _ => none

/-- The variable that stands for an option which is not given. -/
def envName? : Setting → Option String
  | serverId => some "REGISTRY_SERVER_ID"
  | listen => some "REGISTRY_LISTEN"
  | advertise => some "REGISTRY_ADVERTISE"
  | peer => some "REGISTRY_PEERS"
  | appName => some "REGISTRY_APP_NAME"
  | threshold => some "REGISTRY_RENEWAL_PERCENT_THRESHOLD"
  | preservationOff => some "REGISTRY_DISABLE_SELF_PRESERVATION"
  | evictionInterval => some "REGISTRY_EVICTION_INTERVAL_SECS"
  | evictionDelay => some "REGISTRY_EVICTION_DELAY_SECS"
  | syncWait => some "REGISTRY_WAIT_TIME_WHEN_SYNC_EMPTY_SECS"
  | heartbeatInterval => some "REGISTRY_HEARTBEAT_INTERVAL_SECS"
  | heartbeatMisses => some "REGISTRY_HEARTBEAT_MISSES"
  | peerTimeout => some "REGISTRY_PEER_TIMEOUT_MS"
  | peerRetries => some "REGISTRY_PEER_RETRIES"
  | verbose | help => none

def takesValue : Setting → Bool
  | preservationOff | verbose | help => false
  | _ => true

def isRepeatable : Setting → Bool
  | peer => true
  | _ => false

def ofLong? (name : String) : Option Setting := all.find? (·.long = name)

def ofShort? (c : Char) : Option Setting := all.find? (·.short? = some c)

end Setting

namespace Arguments

def orUnreadable {α β : Type} (o : Option α) (f : α → β) : Except ArgumentError β :=
  match o with
  | some a => .ok (f a)
  | none => .error .unreadableValue

def readFlag (value : String) : Except ArgumentError Bool :=
  if value = "true" then .ok true
  else if value = "false" then .ok false
  else .error .invalidValue

def splitPeers (value : String) : List String :=
  (value.toList.splitOn ',').map .ofList

def put (a : Arguments) (s : Setting) (value : String) : Except ArgumentError Arguments :=
  let word : Option UInt64 := (Decimal.number? UInt64.size value.toList).map Nat.toUInt64
  let count : Option UInt32 := (Decimal.integer? UInt32.size value.toList).map Nat.toUInt32
  match s with
  | .serverId => .ok { a with serverId := some value }
  | .listen => .ok { a with listen := value }
  | .advertise => .ok { a with advertise := some value }
  | .peer => .ok { a with peers := a.peers ++ splitPeers value }
  | .appName => .ok { a with appName := value }
  | .threshold => orUnreadable (Decimal.float? value.toList) fun x => { a with threshold := x }
  | .preservationOff => (readFlag value).map fun b => { a with preservationOff := b }
  | .evictionInterval => orUnreadable word fun n => { a with evictionInterval := n }
  | .evictionDelay => orUnreadable word fun n => { a with evictionDelay := n }
  | .syncWait => orUnreadable word fun n => { a with syncWait := n }
  | .heartbeatInterval => orUnreadable word fun n => { a with heartbeatInterval := n }
  | .heartbeatMisses => orUnreadable count fun n => { a with heartbeatMisses := n }
  | .peerTimeout => orUnreadable word fun n => { a with peerTimeout := n }
  | .peerRetries => orUnreadable count fun n => { a with peerRetries := n }
  | .verbose => (readFlag value).map fun b => { a with verbose := b }
  | .help => .error .helpWanted

end Arguments

/-- How far a command line has been read. -/
structure CommandLine where
  arguments : Arguments
  given : List Setting
  /-- The option whose value may still be outstanding, with its value if it has come. -/
  pending : Option (Setting × Option String)
  ended : Bool

namespace CommandLine

def start : CommandLine := ⟨.standard, [], none, false⟩

def take (c : CommandLine) (s : Setting) (value : String) : Except ArgumentError CommandLine :=
  if s ∈ c.given ∧ s.isRepeatable = false then .error .repeated
  else (c.arguments.put s value).map fun arguments => { c with arguments, given := s :: c.given }

def flush (c : CommandLine) : Except ArgumentError CommandLine :=
  match c.pending with
  | none => .ok c
  | some (_, none) => .error .invalidValue
  | some (s, some value) => { c with pending := none }.take s value

/-- Takes an option whose value is part of its word, or a flag. -/
def attach (c : CommandLine) (s : Setting) (value : String) : Except ArgumentError CommandLine := do
  (← c.flush).take s value

def await (c : CommandLine) (s : Setting) : Except ArgumentError CommandLine := do
  return { ← c.flush with pending := some (s, none) }

/-- Reads the letters of a word behind its dash. -/
def readShort (c : CommandLine) : List Char → Except ArgumentError CommandLine
  | [] => .ok c
  | letter :: rest =>
    match Setting.ofShort? letter with
    | none => .error .unknownWord
    | some s =>
      if s.takesValue then
        match rest with
        | [] => c.await s
        | '=' :: value => c.attach s (.ofList value)
        | value => c.attach s (.ofList value)
      else do readShort (← c.attach s "true") rest

/-- Reads the name behind two dashes, with a value if an equals sign follows. -/
def readLong (c : CommandLine) (word : List Char) : Except ArgumentError CommandLine :=
  match Setting.ofLong? (.ofList (word.takeWhile (· ≠ '='))), word.dropWhile (· ≠ '=') with
  | none, _ => .error .unknownWord
  | some s, [] => if s.takesValue then c.await s else c.attach s "true"
  | some s, _ :: value => if s.takesValue then c.attach s (.ofList value) else .error .surplusValue

def readPlain (c : CommandLine) (word : List Char) : Except ArgumentError CommandLine :=
  match c.pending with
  | some (s, none) => .ok { c with pending := some (s, some (.ofList word)) }
  | _ => .error .unknownWord

/-- Reads one word. Two dashes alone end the options, and nothing may follow them. -/
def readWord (c : CommandLine) (word : String) : Except ArgumentError CommandLine :=
  if c.ended then .error .unknownWord
  else
    match word.toList with
    | ['-', '-'] => .ok { c with ended := true }
    | '-' :: '-' :: name => c.readLong name
    | ['-'] => c.readPlain ['-']
    | '-' :: letters => c.readShort letters
    | plain => c.readPlain plain

/-- Takes the value that a variable has for an option which is not given. -/
def readVariable (environment : String → Option String) (c : CommandLine) (s : Setting) :
    Except ArgumentError CommandLine :=
  match s.envName?.bind environment with
  | none => .ok c
  | some value => if s ∈ c.given then .ok c else c.take s value

/-- Reads the words of a command line and the variables of the environment. -/
def read (words : List String) (environment : String → Option String) :
    Except ArgumentError Arguments := do
  let c ← words.foldlM readWord start
  let c ← c.flush
  let c ← Setting.all.foldlM (readVariable environment) c
  return c.arguments

end CommandLine

end LeaseRegistry
