import Quotum.SafeHttp
import Quotum.Proofs.DecimalCodec

/-! What an operator's networks can approve, and which addresses a post connects to. -/

namespace Quotum.SafeHttp
open General
open Quotum.Decimal (trim trim_trim isBlank digit_not_blank)

variable {address : Ip} {approved : Approved} {value network : Text}

private theorem div_pow_widen {value network fewer more : Nat} (wider : fewer ≤ more)
    (same : value / 2 ^ fewer = network / 2 ^ fewer) : value / 2 ^ more = network / 2 ^ more := by
  obtain ⟨extra, rfl⟩ := Nat.exists_eq_add_of_le wider
  rw [Nat.pow_add, ← Nat.div_div_eq_div_mul, ← Nat.div_div_eq_div_mul, same]

theorem Subnet.contains_widen {inner range : Subnet} (family : range.family = inner.family)
    (bits : range.bits ≤ inner.bits) (inside : range.contains inner.network = true) (held : inner.contains address = true) :
    range.contains address = true := by
  have wider : inner.hostBits ≤ range.hostBits := by
    rw [Subnet.hostBits, Subnet.hostBits, family]
    omega
  have same := div_pow_widen wider (of_decide_eq_true held)
  exact decide_eq_true (same.trans (of_decide_eq_true inside))

private theorem check_iff {list : BlockList} :
    list.check address = true ↔ ∃ subnet ∈ list, subnet.contains address = true := by
  simp only [BlockList.check, List.any_eq_true]

def Subnet.Approvable (subnet : Subnet) : Prop :=
  subnet.bits ≤ subnet.family.width ∧
    ∃ range ∈ approvable, range.family = subnet.family ∧ range.bits ≤ subnet.bits ∧ range.contains subnet.network = true

theorem Subnet.Approvable.range {subnet : Subnet} (inside : subnet.Approvable)
    (held : subnet.contains address = true) :
    ∃ range ∈ approvable, range.family = subnet.family ∧ range.contains address = true := by
  obtain ⟨-, range, listed, family, bits, network⟩ := inside
  exact ⟨range, listed, family, Subnet.contains_widen family bits network held⟩

private theorem isInside_inv {bits : Int} (inside : isInside address bits = true) :
    bits = bits.toNat ∧ Subnet.Approvable { network := address, bits := bits.toNat } := by
  simp only [isInside, Bool.and_eq_true, decide_eq_true_eq, List.any_eq_true, BlockList.check, List.any_cons, List.any_nil,
    Bool.or_false] at inside
  obtain ⟨width, range, listed, ⟨family, longer⟩, network⟩ := inside
  have natural : bits = bits.toNat := by omega
  have room : bits.toNat ≤ address.family.width := by omega
  have below : range.bits ≤ bits.toNat := by omega
  exact ⟨natural, room, range, listed, family, below, network⟩

section Texts

private theorem splitOn_part (separator : Char) (text : Text) : ∀ part ∈ text.splitOn separator, separator ∉ part := by
  induction text with
  | nil =>
    intro part member
    rw [List.splitOn_nil, List.mem_singleton] at member
    rw [member]
    exact List.not_mem_nil
  | cons first rest ih =>
    obtain ⟨head, tail, parts⟩ := List.exists_cons_of_ne_nil (List.splitOn_ne_nil separator rest)
    intro part member
    rw [List.splitOn_cons_eq_if_modifyHead] at member
    split at member
    · rcases List.mem_cons.mp member with rfl | later
      · exact List.not_mem_nil
      · exact ih part later
    · next other =>
      rw [parts, List.modifyHead_cons] at member
      rcases List.mem_cons.mp member with rfl | later
      · intro inside
        rcases List.mem_cons.mp inside with rfl | deeper
        · simp at other
        · exact ih head (by rw [parts]; exact List.mem_cons_self) deeper
      · exact ih part (by rw [parts]; exact List.mem_cons_of_mem head later)

private theorem hostOf_separated (network : Text) : '/' ∉ hostOf network := by
  obtain ⟨head, tail, parts⟩ := List.exists_cons_of_ne_nil (List.splitOn_ne_nil '/' network)
  rw [hostOf, parts]
  exact splitOn_part '/' network head (by rw [parts]; exact List.mem_cons_self)

private theorem digits_separated (bits : Nat) : '/' ∉ Nat.toDigits 10 bits :=
  fun member => absurd (Json.toDigits_digit member) (by decide)

private theorem networkText_split {host : Text} (separated : '/' ∉ host) (bits : Nat) :
    (networkText host bits).splitOn '/' = [host, Nat.toDigits 10 bits] := by
  rw [networkText, List.splitOn_append_cons_self_of_not_mem separated, List.splitOn_eq_singleton (digits_separated bits)]

private theorem hostOf_networkText (entry : Text) (bits : Nat) : hostOf (networkText (hostOf entry) bits) = hostOf entry := by
  rw [hostOf, networkText_split (hostOf_separated entry)]
  rfl

private theorem lengthOf_networkText (entry : Text) (bits : Nat) : lengthOf (networkText (hostOf entry) bits) = some (Nat.toDigits 10 bits) := by
  rw [lengthOf, networkText_split (hostOf_separated entry)]
  rfl

end Texts

section Networks
variable {isIP : Text → Option Ip} {policy : DestinationPolicy}

private theorem entryAddress_some {entry : Text} {ip : Ip} (read : entryAddress isIP entry = some ip) : isIP (hostOf entry) = some ip := by
  rw [entryAddress] at read
  split at read
  · cases read
  · exact read

private theorem parseNetwork_ok {entry : Text} (parsed : parseNetwork isIP entry = .ok network) :
    ∃ ip, ∃ bits : Nat, entryAddress isIP entry = some ip ∧ isInside ip bits = true ∧ network = networkText (hostOf entry) bits := by
  rw [parseNetwork] at parsed
  cases read : entryAddress isIP entry with
  | none =>
    rw [read] at parsed
    cases parsed
  | some ip =>
    simp only [read] at parsed
    split at parsed
    · next inside =>
      cases parsed
      exact ⟨ip, _, rfl, (isInside_inv inside).1 ▸ inside, rfl⟩
    · cases parsed

private theorem parseNetwork_inv {entry : Text} (parsed : parseNetwork isIP entry = .ok network) :
    ∃ subnet : Subnet, addSubnet isIP network = .ok subnet ∧ subnet.Approvable := by
  obtain ⟨ip, bits, read, inside, rfl⟩ := parseNetwork_ok parsed
  have approvable : Subnet.Approvable ⟨ip, bits⟩ := (isInside_inv inside).2
  refine ⟨⟨ip, bits⟩, ?_, approvable⟩
  rw [addSubnet, hostOf_networkText, lengthOf_networkText, entryAddress_some read]
  simp only [Nat.ofDigitChars_ten_toDigits]
  exact if_pos approvable.1

private theorem parseAllowedNetworks_inv {networks : List Text} (parsed : parseAllowedNetworks isIP value = .ok networks) :
    ∀ network ∈ networks, ∃ subnet : Subnet, addSubnet isIP network = .ok subnet ∧ subnet.Approvable := by
  intro network listed
  obtain ⟨entry, -, accepted⟩ := (paired (mapM_ok parsed)).2 network listed
  exact parseNetwork_inv accepted

private theorem approvedNetworks_lists (read : approvedNetworks isIP policy = .ok approved) :
    (∀ subnet ∈ approved.v4, subnet.Approvable ∧ subnet.family = .ipv4) ∧
      ∀ subnet ∈ approved.v6, subnet.Approvable ∧ subnet.family ≠ .ipv4 := by
  rw [approvedNetworks] at read
  obtain ⟨networks, parsed, read⟩ := bind_ok read
  obtain ⟨subnets, added, read⟩ := bind_ok read
  have each : ∀ subnet ∈ subnets, subnet.Approvable := by
    intro subnet listed
    obtain ⟨network, inside, here⟩ := (paired (mapM_ok added)).2 subnet listed
    obtain ⟨other, there, approvable⟩ := parseAllowedNetworks_inv parsed network inside
    rw [here] at there
    cases there
    exact approvable
  cases read
  refine ⟨fun subnet kept => ?_, fun subnet kept => ?_⟩
  · obtain ⟨listed, family⟩ := List.mem_filter.mp kept
    exact ⟨each subnet listed, of_decide_eq_true family⟩
  · obtain ⟨listed, family⟩ := List.mem_filter.mp kept
    exact ⟨each subnet listed, of_decide_eq_true family⟩

private theorem allows_inv (read : approvedNetworks isIP policy = .ok approved)
    {address : Text} (allowed : approved.allows isIP address = true) :
    ∃ ip, isIP address = some ip ∧ ∃ range ∈ approvable, range.contains ip = true := by
  obtain ⟨v4, v6⟩ := approvedNetworks_lists read
  rw [Approved.allows] at allowed
  cases known : isIP address with
  | none =>
    rw [known] at allowed
    cases allowed
  | some ip =>
    simp only [known] at allowed
    refine ⟨ip, rfl, ?_⟩
    obtain ⟨subnet, listed, held⟩ := check_iff.mp allowed
    have approvable : subnet.Approvable := by
      split at listed
      · exact (v4 subnet listed).1
      · exact (v6 subnet listed).1
    obtain ⟨range, listed, -, inside⟩ := approvable.range held
    exact ⟨range, listed, inside⟩

private theorem approvedNetworks_none (empty : parseAllowedNetworks isIP ([','].intercalate policy.allowedNetworks) = .ok [])
    (read : approvedNetworks isIP policy = .ok approved) (address : Text) : approved.allows isIP address = false := by
  rw [approvedNetworks, empty] at read
  cases read
  rw [Approved.allows]
  cases isIP address with
  | none => rfl
  | some ip => cases ip <;> rfl

end Networks

structure Undenied (address : Ip) : Prop where
  plain : denied.check address = false
  wide : address.family = .ipv6 → deniedV6.check address = false

theorem Ip.mapped_front (value : BitVec 32) : (Ip.ipv4 value).mapped / 2 ^ 32 = 0xffff := by
  have bounded := value.isLt
  rw [Ip.mapped]
  omega

theorem Subnet.contains_mapped {subnet : Subnet} (family : subnet.family = .ipv4)
    (held : subnet.contains address = true) : address.mapped / 2 ^ 32 = 0xffff := by
  have fewer : subnet.hostBits ≤ 32 := by
    rw [Subnet.hostBits, family]
    exact Nat.sub_le 32 subnet.bits
  have same := div_pow_widen fewer (of_decide_eq_true held)
  obtain ⟨network, bits⟩ := subnet
  cases network with
  | ipv4 value => exact same.trans (Ip.mapped_front value)
  | ipv6 value => cases family

private theorem denied_mapped (held : denied.check address = true) : address.mapped / 2 ^ 32 = 0xffff := by
  obtain ⟨subnet, listed, held⟩ := check_iff.mp held
  have families : (denied.all fun subnet => decide (subnet.family = .ipv4)) = true := by decide
  exact Subnet.contains_mapped (of_decide_eq_true (List.all_eq_true.mp families subnet listed)) held

private theorem mapped_denied (front : address.mapped / 2 ^ 32 = 0xffff) : deniedV6.check address = true := by
  have listed : (⟨groups 0 0 0 0 0 0xffff 0 0, 96⟩ : Subnet) ∈ deniedV6 := by decide
  have network : (groups 0 0 0 0 0 0xffff 0 0).mapped / 2 ^ 32 = 0xffff := by decide
  exact check_iff.mpr ⟨_, listed, decide_eq_true (front.trans network.symm)⟩

section Posts
variable {isIP : Text → Option Ip}

private theorem isPublicAddress_inv {address : Text} (isPublic : isPublicAddress isIP address = true) :
    ∃ ip, isIP address = some ip ∧ Undenied ip := by
  rw [isPublicAddress] at isPublic
  cases known : isIP address with
  | none =>
    rw [known] at isPublic
    cases isPublic
  | some ip =>
    simp only [known, Bool.and_eq_true, Bool.not_eq_true'] at isPublic
    refine ⟨ip, rfl, ?_⟩
    cases ip with
    | ipv4 value => exact ⟨isPublic.2, (by rintro ⟨⟩)⟩
    | ipv6 value =>
      have wide : deniedV6.check (.ipv6 value) = false := isPublic.2
      refine ⟨Bool.eq_false_iff.mpr fun held => ?_, fun _ => wide⟩
      rw [mapped_denied (denied_mapped held)] at wide
      cases wide

def LooksUpLiterals (isIP : Text → Option Ip) (lookup : Text → Lookup) : Prop :=
  ∀ host, (isIP host).isSome = true → ∃ family, lookup host = .resolved [{ address := host, family }]

variable {newUrl : Text → Option Url} {lookup : Text → Lookup} {policy : DestinationPolicy} {urlString : Text}
  {connection : Connection} {addresses : List Resolved}

private theorem pin_inv {url : Url} (pinned : pin isIP policy url approved addresses = .ok connection) :
    connection.url = url ∧ connection.insecure = isInsecure policy url ∧ connection.target ∈ addresses ∧
      ∀ resolved ∈ addresses, isAllowed isIP approved connection.insecure resolved.address = true := by
  cases addresses with
  | nil => cases pinned
  | cons target others =>
    simp only [pin] at pinned
    split at pinned
    · next all =>
      cases pinned
      exact ⟨rfl, rfl, List.mem_cons_self, List.all_eq_true.mp all⟩
    · cases pinned

private theorem postToDestination_inv (posted : postToDestination isIP newUrl lookup policy urlString = .ok connection) :
    ∃ approved addresses, approvedNetworks isIP policy = .ok approved ∧ newUrl urlString = some connection.url ∧
      isUsable policy connection.url = true ∧ lookup (unbracketed connection.url.hostname) = .resolved addresses ∧
      pin isIP policy connection.url approved addresses = .ok connection := by
  rw [postToDestination] at posted
  cases read : newUrl urlString with
  | none =>
    rw [read] at posted
    cases posted
  | some url =>
    simp only [read] at posted
    split at posted
    · next usable =>
      obtain ⟨approved, networks, posted⟩ := bind_ok posted
      cases answer : lookup (unbracketed url.hostname) with
      | failed message =>
        rw [answer] at posted
        cases posted
      | timedOut =>
        rw [answer] at posted
        cases posted
      | resolved addresses =>
        rw [answer] at posted
        have same := (pin_inv posted).1
        rw [same]
        exact ⟨approved, addresses, networks, rfl, usable, answer, posted⟩
    · cases posted

private theorem dialled_resolved (literals : LooksUpLiterals isIP lookup)
    (answer : lookup (unbracketed connection.url.hostname) = .resolved addresses) (target : connection.target ∈ addresses) :
    ∃ resolved ∈ addresses, resolved.address = connection.dialled isIP := by
  rw [Connection.dialled]
  split
  · next literal =>
    obtain ⟨family, itself⟩ := literals _ literal
    rw [answer] at itself
    cases itself
    exact ⟨_, List.mem_cons_self, rfl⟩
  · exact ⟨connection.target, target, rfl⟩

private theorem isAllowed_inv {insecure : Bool} {address : Text}
    (allowed : isAllowed isIP approved insecure address = true) :
    (approved.allows isIP address = true ∨ isPublicAddress isIP address = true) ∧
      (insecure = true → approved.allows isIP address = true) := by
  simp only [isAllowed, Bool.or_eq_true, Bool.and_eq_true, Bool.not_eq_true'] at allowed
  refine ⟨allowed.imp id And.right, fun plain => allowed.resolve_right fun other => ?_⟩
  rw [plain] at other
  cases other.1

/-- Every address of an accepted network lies in an approvable range. A post connects to a resolved address only when all of the
resolved ones are public or approved, over plain http only when all of them are approved, and without an approved network to no
address of a denied range. -/
theorem destination_policy (isIP : Text → Option Ip) :
    (∀ value networks, parseAllowedNetworks isIP value = .ok networks →
      ∀ network ∈ networks, ∃ subnet, addSubnet isIP network = .ok subnet ∧
        ∀ address, subnet.contains address = true →
          ∃ range ∈ approvable, range.family = subnet.family ∧ range.contains address = true) ∧
    ∀ newUrl lookup policy urlString connection,
      postToDestination isIP newUrl lookup policy urlString = .ok connection →
      ∃ approved addresses, approvedNetworks isIP policy = .ok approved ∧
        newUrl urlString = some connection.url ∧
        lookup (unbracketed connection.url.hostname) = .resolved addresses ∧
        connection.target ∈ addresses ∧
        (LooksUpLiterals isIP lookup → ∃ resolved ∈ addresses, resolved.address = connection.dialled isIP) ∧
        (∀ resolved ∈ addresses,
          approved.allows isIP resolved.address = true ∨ isPublicAddress isIP resolved.address = true) ∧
        (connection.insecure = false → connection.url.protocol = "https:".toList) ∧
        (connection.insecure = true → ∀ resolved ∈ addresses, approved.allows isIP resolved.address = true) ∧
        (∀ resolved ∈ addresses, ∃ ip, isIP resolved.address = some ip ∧
          (Undenied ip ∨ ∃ range ∈ approvable, range.contains ip = true)) ∧
        (parseAllowedNetworks isIP ([','].intercalate policy.allowedNetworks) = .ok [] →
          ∀ resolved ∈ addresses, ∃ ip, isIP resolved.address = some ip ∧ Undenied ip) := by
  refine ⟨?_, ?_⟩
  · intro value networks parsed network listed
    obtain ⟨subnet, added, approvable⟩ := parseAllowedNetworks_inv parsed network listed
    exact ⟨subnet, added, fun address held => approvable.range held⟩
  · intro newUrl lookup policy urlString connection posted
    obtain ⟨approved, addresses, networks, url, usable, answer, pinned⟩ := postToDestination_inv posted
    obtain ⟨-, insecure, target, all⟩ := pin_inv pinned
    have qualifies resolved listed := isAllowed_inv (all resolved listed)
    refine ⟨approved, addresses, networks, url, answer, target, fun literals => dialled_resolved literals answer target,
      fun resolved listed => (qualifies resolved listed).1, ?_, fun plain resolved listed => (qualifies resolved listed).2 plain,
      ?_, ?_⟩
    · intro secure
      simp only [isUsable, ← insecure, secure, Bool.or_false, Bool.and_eq_true, decide_eq_true_eq] at usable
      exact usable.1
    · intro resolved listed
      rcases (qualifies resolved listed).1 with approves | isPublic
      · obtain ⟨ip, known, range⟩ := allows_inv networks approves
        exact ⟨ip, known, .inr range⟩
      · obtain ⟨ip, known, undenied⟩ := isPublicAddress_inv isPublic
        exact ⟨ip, known, .inl undenied⟩
    · intro empty resolved listed
      apply isPublicAddress_inv
      apply (qualifies resolved listed).1.resolve_left
      rw [approvedNetworks_none empty networks]
      exact Bool.false_ne_true

end Posts

section Reread
variable {isIP : Text → Option Ip} {entry : Text}

private theorem hostOf_starts (entry : Text) : hostOf entry <+: entry := by
  obtain ⟨head, tail, parts⟩ := List.exists_cons_of_ne_nil (List.splitOn_ne_nil '/' entry)
  have whole : ['/'].intercalate (entry.splitOn '/') = entry := List.intercalate_splitOn '/'
  rw [parts] at whole
  rw [hostOf, parts, List.headD_cons, ← whole]
  cases tail <;> simp [List.intercalate]

private theorem networkText_trimmed (trimmed : trim entry = entry) (bits : Nat) :
    trim (networkText (hostOf entry) bits) = networkText (hostOf entry) bits := by
  have front : (networkText (hostOf entry) bits).dropWhile isBlank = networkText (hostOf entry) bits := by
    have starts := hostOf_starts entry
    cases host : hostOf entry with
    | nil => rfl
    | cons first rest =>
      rw [networkText, List.cons_append, List.dropWhile_cons_of_neg]
      intro blank
      rw [host] at starts
      obtain ⟨after, rfl⟩ := starts
      have shorter : (trim (first :: (rest ++ after))).length ≤ (rest ++ after).length := by
        rw [trim, List.dropWhile_cons_of_pos blank]
        exact (List.rdropWhile_prefix _ _).length_le.trans (List.dropWhile_suffix _).length_le
      rw [List.cons_append] at trimmed
      rw [trimmed, List.length_cons] at shorter
      omega
  rw [trim, front, List.rdropWhile_eq_self_iff]
  intro some_
  have last : (networkText (hostOf entry) bits).getLast some_ = (Nat.toDigits 10 bits).getLast Nat.toDigits_ne_nil := by
    simp [networkText, List.getLast_cons]
  rw [last, digit_not_blank (Json.toDigits_digit (List.getLast_mem _))]
  simp

private theorem readBits_toDigits {width bits : Nat} (few : bits ≤ 128) : readBits width (some (Nat.toDigits 10 bits)) = bits := by
  have short : (Nat.toDigits 10 bits).length ≤ 3 := by
    rw [Nat.length_toDigits_le_iff (by omega) (by omega)]
    omega
  have digits : (Nat.toDigits 10 bits).all Char.isDigit = true := List.all_eq_true.mpr fun _ => Json.toDigits_digit
  rw [readBits, if_pos ⟨Nat.toDigits_ne_nil, short, digits⟩, Nat.ofDigitChars_ten_toDigits]

/-- The parser reads a network that it returned as it returned it. -/
private theorem parseNetwork_reread (parsed : parseNetwork isIP entry = .ok network) :
    (∃ bits, network = networkText (hostOf entry) bits) ∧ parseNetwork isIP network = .ok network := by
  obtain ⟨ip, bits, read, inside, rfl⟩ := parseNetwork_ok parsed
  refine ⟨⟨bits, rfl⟩, ?_⟩
  have again : entryAddress isIP (networkText (hostOf entry) bits) = some ip := by
    rw [entryAddress] at read
    split at read
    · cases read
    · next plain =>
      rw [entryAddress, hostOf_networkText, networkText_split (hostOf_separated entry), if_neg]
      · exact read
      · exact not_or.mpr ⟨not_not.mpr rfl, (not_or.mp plain).2⟩
  have widest : ∀ family : Family, family.width ≤ 128 := by
    intro family
    cases family <;> decide
  have few : bits ≤ 128 := ((isInside_inv inside).2.1 : bits ≤ _).trans (widest _)
  rw [parseNetwork, again]
  simp only [lengthOf_networkText, readBits_toDigits few, hostOf_networkText, if_pos inside, Int.toNat_natCast]

private theorem entries_apart (member : entry ∈ entriesOf value) : ',' ∉ entry ∧ trim entry = entry := by
  obtain ⟨part, split, rfl⟩ := List.mem_map.mp (List.mem_of_mem_filter member)
  refine ⟨fun inside => splitOn_part ',' value part split ?_, trim_trim part⟩
  exact (List.dropWhile_suffix _).subset ((List.rdropWhile_prefix _ _).subset inside)

private theorem networks_reread {networks : List Text} (parsed : parseAllowedNetworks isIP value = .ok networks) :
    parseAllowedNetworks isIP ([','].intercalate networks) = .ok networks := by
  have each : ∀ network ∈ networks, ',' ∉ network ∧ trim network = network ∧ network ≠ [] ∧ parseNetwork isIP network = .ok network := by
    intro network listed
    obtain ⟨entry, member, accepted⟩ := (paired (mapM_ok parsed)).2 network listed
    obtain ⟨whole, trimmed⟩ := entries_apart member
    obtain ⟨⟨bits, rfl⟩, again⟩ := parseNetwork_reread accepted
    refine ⟨fun comma => ?_, networkText_trimmed trimmed bits, by simp [networkText], again⟩
    rcases List.mem_append.mp comma with host | rest
    · exact whole ((hostOf_starts entry).subset host)
    · rcases List.mem_cons.mp rest with slash | digit
      · exact absurd slash (by decide)
      · exact absurd (Json.toDigits_digit digit) (by decide)
  have entries : entriesOf ([','].intercalate networks) = networks := by
    rw [entriesOf]
    by_cases none_ : networks = []
    · subst none_
      rfl
    · have trimmed : networks.map trim = networks.map id := List.map_congr_left fun network listed => (each network listed).2.1
      rw [List.splitOn_intercalate ',' (fun network listed => (each network listed).1) none_, trimmed, List.map_id, List.filter_eq_self]
      exact fun network listed => decide_eq_true (each network listed).2.2.1
  have read : networks.mapM (parseNetwork isIP) = .ok (networks.map id) := mapM_eq fun network listed => (each network listed).2.2.2
  rw [parseAllowedNetworks, entries, read, List.map_id]

/-- The networks that a deployment keeps are read again for each post as they were kept, and approve just the addresses that lie in
one of their own family. -/
theorem policy_approves (isIP : Text → Option Ip) {value : Text} {networks : List Text} (parsed : parseAllowedNetworks isIP value = .ok networks)
    (allowInsecureHttp : Bool) : parseAllowedNetworks isIP ([','].intercalate networks) = .ok networks ∧
      ∃ approved, approvedNetworks isIP ⟨networks, allowInsecureHttp⟩ = .ok approved ∧
        ∀ address ip, isIP address = some ip → (approved.allows isIP address = true ↔
          ∃ network ∈ networks, ∃ subnet, addSubnet isIP network = .ok subnet ∧ subnet.family = ip.family ∧ subnet.contains ip = true) := by
  have each : ∀ network ∈ networks, ∃ subnet, addSubnet isIP network = .ok subnet := by
    intro network listed
    obtain ⟨subnet, added, -⟩ := parseAllowedNetworks_inv parsed network listed
    exact ⟨subnet, added⟩
  obtain ⟨subnets, added⟩ := mapM_succeeds each
  have made := paired (mapM_ok added)
  have again := networks_reread parsed
  refine ⟨again, _, by rw [approvedNetworks, again, ok_bind, added, ok_bind], ?_⟩
  intro address ip known
  have family : ∀ subnet : Subnet, subnet ∈ (if ip.family = .ipv4 then subnets.filter fun subnet => decide (subnet.family = .ipv4)
      else subnets.filter fun subnet => decide (subnet.family ≠ .ipv4)) ↔ subnet ∈ subnets ∧ subnet.family = ip.family := by
    intro subnet
    generalize ip.family = wanted
    cases wanted <;> cases own : subnet.family <;> simp [own]
  simp only [Approved.allows, known, check_iff, family]
  constructor
  · rintro ⟨subnet, ⟨listed, same⟩, inside⟩
    obtain ⟨network, kept, here⟩ := made.2 subnet listed
    exact ⟨network, kept, subnet, here, same, inside⟩
  · rintro ⟨network, kept, subnet, here, same, inside⟩
    obtain ⟨other, listed, there⟩ := made.1 network kept
    obtain rfl := Except.ok.inj (here.symm.trans there)
    exact ⟨subnet, ⟨listed, same⟩, inside⟩

end Reread

def privateReading (text : Text) : Option Ip :=
  if text = "10.0.0.0".toList then some (octets 10 0 0 0)
  else if text = "10.20.0.5".toList then some (octets 10 20 0 5)
  else none

def receiver : Url where
  protocol := "http:".toList
  username := []
  password := []
  hash := []
  hostname := "10.20.0.5".toList

def privateLookup (host : Text) : Lookup :=
  .resolved [{ address := host, family := 4 }]

def privatePolicy : DestinationPolicy where
  allowedNetworks := ["10.0.0.0/8".toList]
  allowInsecureHttp := true

def privatePost : Connection where
  url := receiver
  insecure := true
  target := { address := "10.20.0.5".toList, family := 4 }

def receiverUrl : Text := "http://10.20.0.5/projections".toList

def readUrl (text : Text) : Option Url :=
  if text = receiverUrl then some receiver else none

private theorem private_posted : postToDestination privateReading readUrl privateLookup privatePolicy receiverUrl = .ok privatePost := by
  decide

private theorem private_network : parseAllowedNetworks privateReading "10.0.0.0/8".toList = .ok ["10.0.0.0/8".toList] := by
  decide

/-- A host that is an approved address itself, dialled over plain http. -/
theorem destination_policy_private :
    (∃ subnet, addSubnet privateReading "10.0.0.0/8".toList = .ok subnet ∧
      ∀ address, subnet.contains address = true → ∃ range ∈ approvable, range.contains address = true) ∧
    ∃ approved addresses, privateLookup "10.20.0.5".toList = .resolved addresses ∧
      (∃ resolved ∈ addresses, resolved.address = privatePost.dialled privateReading) ∧
      ∀ resolved ∈ addresses, Approved.allows privateReading approved resolved.address = true := by
  obtain ⟨inside, connected⟩ := destination_policy privateReading
  obtain ⟨subnet, added, ranges⟩ := inside _ _ private_network _ List.mem_cons_self
  obtain ⟨approved, addresses, -, -, answer, -, dialled, -, -, plain, -⟩ := connected _ _ _ _ _ private_posted
  refine ⟨⟨subnet, added, fun address held => ?_⟩, approved, addresses, answer, dialled fun host _ => ⟨4, rfl⟩, plain rfl⟩
  obtain ⟨range, listed, -, contained⟩ := ranges address held
  exact ⟨range, listed, contained⟩

theorem policy_approves_private : parseAllowedNetworks privateReading "10.0.0.0/8".toList = .ok ["10.0.0.0/8".toList] ∧
    ∃ approved, approvedNetworks privateReading privatePolicy = .ok approved ∧ approved.allows privateReading "10.20.0.5".toList = true := by
  obtain ⟨again, approved, read, allows⟩ := policy_approves privateReading private_network true
  refine ⟨again, approved, read, (allows _ (octets 10 20 0 5) (by decide)).mpr ⟨_, List.mem_singleton_self _, ⟨octets 10 0 0 0, 8⟩, ?_⟩⟩
  decide

end Quotum.SafeHttp
