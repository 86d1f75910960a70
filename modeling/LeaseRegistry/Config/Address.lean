import LeaseRegistry.Decimal.Numeral
import LeaseRegistry.Text.Blank

/-!
# Addresses of servers

Peers are named by `ws` URLs in one canonical form, and an address that a server advertises is
split into its host and port. Addresses are handled as lists of characters.
-/

namespace LeaseRegistry

namespace Address

def plain : List Char := "ws://".toList

def encrypted : List Char := "wss://".toList

/-- Drops blanks around the address and slashes at its end, and adds the plain scheme if it has
none. -/
def normalizeChars (address : List Char) : List Char :=
  let address := Text.trimEnd (· == '/') (Text.trim Text.isBlank address)
  if plain.isPrefixOf address || encrypted.isPrefixOf address then address else plain ++ address

def normalize (address : String) : String :=
  .ofList (normalizeChars address.toList)

/-- Nothing but blanks. -/
def isBlank (address : String) : Bool :=
  address.toList.all Text.isBlank

def afterFirst? (mark : List Char) : List Char → Option (List Char)
  | [] => if mark.isEmpty then some [] else none
  | c :: cs =>
    if mark.isPrefixOf (c :: cs) then some ((c :: cs).drop mark.length)
    else afterFirst? mark cs

def splitLast? (mark : Char) (cs : List Char) : Option (List Char × List Char) :=
  let back := cs.reverse
  match back.dropWhile (· != mark) with
  | [] => none
  | _ :: front => some (front.reverse, (back.takeWhile (· != mark)).reverse)

def isBracket (c : Char) : Bool := c == '[' || c == ']'

/-- The host and port of an address, as `scheme://host:port/path` or a part of it. Brackets around
the host are dropped; a port that is missing or none is 0. -/
def splitChars (address : List Char) : List Char × UInt16 :=
  let rest := (afterFirst? "://".toList address).getD address
  let authority := rest.takeWhile (· != '/')
  match splitLast? ':' authority with
  | none => (authority, 0)
  | some (host, port) =>
    (Text.trim isBracket host, ((Decimal.number? UInt16.size port).getD 0).toUInt16)

def split (address : String) : String × UInt16 :=
  let (host, port) := splitChars address.toList
  (.ofList host, port)

end Address

end LeaseRegistry
