import Quotum.Decimal

/-! Where an outbound post may go. Addresses are matched as Node's block lists match them; the reading of an address text, of a
URL and of a name's records is Node's. -/

namespace Quotum.SafeHttp
open Quotum.Decimal (trim)

inductive Family where
  | ipv4
  | ipv6
  deriving DecidableEq

def Family.width : Family → Nat
  | .ipv4 => 32
  | .ipv6 => 128

inductive Ip where
  | ipv4 (value : BitVec 32)
  | ipv6 (value : BitVec 128)
  deriving DecidableEq

def Ip.family : Ip → Family
  | .ipv4 _ => .ipv4
  | .ipv6 _ => .ipv6

/-- The address as an IPv6 one. An IPv4 address stands behind `::ffff:0:0/96`. -/
def Ip.mapped : Ip → Nat
  | .ipv4 value => 0xffff * 2 ^ 32 + value.toNat
  | .ipv6 value => value.toNat

def octets (a b c d : BitVec 8) : Ip :=
  .ipv4 (a ++ b ++ c ++ d)

def groups (a b c d e f g h : BitVec 16) : Ip :=
  .ipv6 (a ++ b ++ c ++ d ++ e ++ f ++ g ++ h)

structure Subnet where
  network : Ip
  bits : Nat
  deriving DecidableEq

def Subnet.family (subnet : Subnet) : Family :=
  subnet.network.family

def Subnet.hostBits (subnet : Subnet) : Nat :=
  subnet.family.width - subnet.bits

def Subnet.contains (subnet : Subnet) (address : Ip) : Bool :=
  decide (address.mapped / 2 ^ subnet.hostBits = subnet.network.mapped / 2 ^ subnet.hostBits)

abbrev BlockList := List Subnet

def BlockList.check (list : BlockList) (address : Ip) : Bool :=
  list.any fun subnet => subnet.contains address

def denied : BlockList :=
  [⟨octets 0 0 0 0, 8⟩, ⟨octets 10 0 0 0, 8⟩, ⟨octets 100 64 0 0, 10⟩, ⟨octets 127 0 0 0, 8⟩, ⟨octets 169 254 0 0, 16⟩,
    ⟨octets 172 16 0 0, 12⟩, ⟨octets 192 0 0 0, 24⟩, ⟨octets 192 0 2 0, 24⟩, ⟨octets 192 168 0 0, 16⟩,
    ⟨octets 198 18 0 0, 15⟩, ⟨octets 198 51 100 0, 24⟩, ⟨octets 203 0 113 0, 24⟩, ⟨octets 224 0 0 0, 4⟩,
    ⟨octets 240 0 0 0, 4⟩]

def deniedV6 : BlockList :=
  [⟨groups 0 0 0 0 0 0 0 0, 128⟩, ⟨groups 0 0 0 0 0 0 0 1, 128⟩, ⟨groups 0 0 0 0 0 0xffff 0 0, 96⟩,
    ⟨groups 0x64 0xff9b 0 0 0 0 0 0, 96⟩, ⟨groups 0x100 0 0 0 0 0 0 0, 64⟩, ⟨groups 0x2001 0 0 0 0 0 0 0, 32⟩,
    ⟨groups 0x2001 0xdb8 0 0 0 0 0 0, 32⟩, ⟨groups 0x2002 0 0 0 0 0 0 0, 16⟩, ⟨groups 0xfc00 0 0 0 0 0 0 0, 7⟩,
    ⟨groups 0xfe80 0 0 0 0 0 0 0, 10⟩, ⟨groups 0xff00 0 0 0 0 0 0 0, 8⟩]

def globalV6 : BlockList :=
  [⟨groups 0x2000 0 0 0 0 0 0 0, 3⟩]

def approvable : List Subnet :=
  [⟨octets 10 0 0 0, 8⟩, ⟨octets 100 64 0 0, 10⟩, ⟨octets 172 16 0 0, 12⟩, ⟨octets 192 168 0 0, 16⟩,
    ⟨groups 0xfc00 0 0 0 0 0 0 0, 7⟩]

structure DestinationPolicy where
  allowedNetworks : List Text
  allowInsecureHttp : Bool
  deriving DecidableEq

def publicDestinationPolicy : DestinationPolicy where
  allowedNetworks := []
  allowInsecureHttp := false

inductive Failure where
  | error (message : Text)
  | destination (message : Text)
  | invalidUrl
  | invalidSubnet
  deriving DecidableEq

structure Url where
  protocol : Text
  username : Text
  password : Text
  hash : Text
  hostname : Text
  deriving DecidableEq

structure Resolved where
  address : Text
  family : Nat
  deriving DecidableEq

inductive Lookup where
  | resolved (addresses : List Resolved)
  | failed (message : Text)
  | timedOut
  deriving DecidableEq

structure Connection where
  url : Url
  insecure : Bool
  target : Resolved
  deriving DecidableEq

/-- `/^\d{1,3}$/`, and the whole width when no length is given. -/
def readBits (width : Nat) : Option Text → Int
  | none => width
  | some text =>
    if text ≠ [] ∧ text.length ≤ 3 ∧ text.all Char.isDigit = true then (Nat.ofDigitChars 10 text 0 : Nat) else -1

def isInside (address : Ip) (bits : Int) : Bool :=
  decide (bits ≤ address.family.width) &&
    approvable.any fun range =>
      decide (range.family = address.family) && decide ((range.bits : Int) ≤ bits) && BlockList.check [range] address

def networkText (address : Text) (bits : Nat) : Text :=
  address ++ '/' :: Nat.toDigits 10 bits

def hostOf (network : Text) : Text :=
  (network.splitOn '/').headD []

def lengthOf (network : Text) : Option Text :=
  (network.splitOn '/')[1]?

def entriesOf (value : Text) : List Text :=
  ((value.splitOn ',').map trim).filter fun entry => decide (entry ≠ [])

/-- The text without its bracket on either side. -/
def unbracketed (hostname : Text) : Text :=
  let opened := if hostname.head? = some '[' then hostname.tail else hostname
  if opened.getLast? = some ']' then opened.dropLast else opened

section Node
variable (isIP : Text → Option Ip)

def isPublicAddress (address : Text) : Bool :=
  match isIP address with
  | none => false
  | some ip =>
    (decide (ip.family ≠ .ipv6) || globalV6.check ip) && !(if ip.family = .ipv4 then denied else deniedV6).check ip

def entryAddress (entry : Text) : Option Ip :=
  if (entry.splitOn '/').drop 2 ≠ [] ∨ '%' ∈ hostOf entry then none else isIP (hostOf entry)

def refused (entry : Text) : Failure :=
  .error (entry ++ " is not a private network receivers may use".toList)

def parseNetwork (entry : Text) : Except Failure Text :=
  match entryAddress isIP entry with
  | none => .error (refused entry)
  | some ip =>
    let bits := readBits ip.family.width (lengthOf entry)
    if isInside ip bits = true then .ok (networkText (hostOf entry) bits.toNat) else .error (refused entry)

def parseAllowedNetworks (value : Text) : Except Failure (List Text) :=
  (entriesOf value).mapM (parseNetwork isIP)

/-- The subnet that a list gets for a network's text, which a list refuses with no address or with more bits than it has. -/
def addSubnet (network : Text) : Except Failure Subnet :=
  match isIP (hostOf network), lengthOf network with
  | some ip, some length =>
    let bits := Nat.ofDigitChars 10 length 0
    if bits ≤ ip.family.width then .ok { network := ip, bits } else .error .invalidSubnet
  | _, _ => .error .invalidSubnet

/-- Separate lists, as one would match a mapped address against its IPv4 networks. -/
structure Approved where
  v4 : BlockList
  v6 : BlockList
  deriving DecidableEq

def approvedNetworks (policy : DestinationPolicy) : Except Failure Approved := do
  let networks ← parseAllowedNetworks isIP ([','].intercalate policy.allowedNetworks)
  let subnets ← networks.mapM (addSubnet isIP)
  .ok
    { v4 := subnets.filter fun subnet => decide (subnet.family = .ipv4)
      v6 := subnets.filter fun subnet => decide (subnet.family ≠ .ipv4) }

def Approved.allows (approved : Approved) (address : Text) : Bool :=
  match isIP address with
  | none => false
  | some ip => (if ip.family = .ipv4 then approved.v4 else approved.v6).check ip

def isInsecure (policy : DestinationPolicy) (url : Url) : Bool :=
  decide (url.protocol = "http:".toList) && policy.allowInsecureHttp

def isUsable (policy : DestinationPolicy) (url : Url) : Bool :=
  (decide (url.protocol = "https:".toList) || isInsecure policy url) &&
    decide (url.username = [] ∧ url.password = [] ∧ url.hash = [])

def destinationRequired (policy : DestinationPolicy) (insecure : Bool) : String :=
  if insecure = true then "An approved private destination is required for http"
  else if policy.allowedNetworks ≠ [] then "A public or approved private HTTPS destination is required"
  else "A public HTTPS destination is required"

def isAllowed (approved : Approved) (insecure : Bool) (address : Text) : Bool :=
  approved.allows isIP address || (!insecure && isPublicAddress isIP address)

/-- The request of a name's resolved addresses: all of them must qualify, and it is pinned to the first. -/
def pin (policy : DestinationPolicy) (url : Url) (approved : Approved) (addresses : List Resolved) : Except Failure Connection :=
  let insecure := isInsecure policy url
  match addresses with
  | [] => .error (.destination (destinationRequired policy insecure).toList)
  | target :: others =>
    if (target :: others).all (fun resolved => isAllowed isIP approved insecure resolved.address) = true then
      .ok { url, insecure, target }
    else .error (.destination (destinationRequired policy insecure).toList)

def postToDestination (newUrl : Text → Option Url) (lookup : Text → Lookup) (policy : DestinationPolicy) (urlString : Text) :
    Except Failure Connection :=
  match newUrl urlString with
  | none => .error .invalidUrl
  | some url =>
    if isUsable policy url = true then do
      let approved ← approvedNetworks isIP policy
      match lookup (unbracketed url.hostname) with
      | .failed message => .error (.destination ("Destination lookup failed: ".toList ++ message))
      | .timedOut => .error (.destination "Destination lookup timed out".toList)
      | .resolved addresses => pin isIP policy url approved addresses
    else .error (.destination "A public HTTPS URL is required".toList)

def publicHttpsPost (newUrl : Text → Option Url) (lookup : Text → Lookup) (urlString : Text) : Except Failure Connection :=
  postToDestination isIP newUrl lookup publicDestinationPolicy urlString

/-- The address that Node dials: a host that is an address itself is not looked up for the request. -/
def Connection.dialled (connection : Connection) : Text :=
  let host := unbracketed connection.url.hostname
  if (isIP host).isSome = true then host else connection.target.address

end Node

end Quotum.SafeHttp
