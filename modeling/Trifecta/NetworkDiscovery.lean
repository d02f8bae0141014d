/-
Listening for the broadcasts of devices on the network, and the list of addresses
that repeated listening fills.
-/
import Trifecta.Startup
import Trifecta.Library.FirstSeen
import Trifecta.Library.FixedText
import Trifecta.Library.JoinedCells
import Trifecta.Library.Transitions

namespace Trifecta

open CText FixedText JoinedCells FirstSeen Transitions

abbrev fsMaxIpAddressLength : Nat := 64

/-- `struct in_addr`, in network byte order. -/
structure InAddr where
  first : UInt8
  second : UInt8
  third : UInt8
  fourth : UInt8
deriving DecidableEq, Repr

/-- The parts of an address in dotted decimal. -/
def InAddr.cells (address : InAddr) : List (List UInt8) :=
  [address.first, address.second, address.third, address.fourth].map fun byte =>
    decimal byte.toNat

def InAddr.text (address : InAddr) : List UInt8 :=
  joined point address.cells

/-- `inet_ntop` for `AF_INET`: nothing when the text does not fit with its NUL. -/
def inetNtop (address : InAddr) (size : Nat) : Option (List UInt8) :=
  if address.text.length < size then some address.text else none

/-- `snprintf(entry, 64, "%s", text)`. -/
def printEntry (entry : Block fsMaxIpAddressLength) (text : List UInt8) :
    Block fsMaxIpAddressLength :=
  entry.write 0 (text.take (fsMaxIpAddressLength - 1) ++ [0])

abbrev IpAddrList : Type := Fin fsMaxNumberDevices → Block fsMaxIpAddressLength

/-- The loop over the datagrams in the socket, by the addresses of their senders. -/
def drainBroadcasts : List InAddr → Nat → IpAddrList → Nat × IpAddrList
  | [], discovered, ipAddrList => (discovered, ipAddrList)
  | srcAddr :: later, discovered, ipAddrList =>
      match inetNtop srcAddr 64 with
      | none => drainBroadcasts later discovered ipAddrList
      | some senderIp =>
          if ∃ i : Fin fsMaxNumberDevices, i.val < discovered ∧ (ipAddrList i).text = senderIp then
            drainBroadcasts later discovered ipAddrList
          else if hroom : discovered < fsMaxNumberDevices then
            drainBroadcasts later (discovered + 1)
              (Function.update ipAddrList ⟨discovered, hroom⟩
                (printEntry (ipAddrList ⟨discovered, hroom⟩) senderIp))
          else drainBroadcasts later discovered ipAddrList

/-- The static socket, and the list that the caller passes. -/
structure Discovery where
  broadcastSock : Int
  ipAddrList : IpAddrList

/-- What the network and the system answer during one call. -/
structure Listening where
  socket : Int
  setsockopt : Int
  bind : Int
  poll : Int
  /-- the senders of the datagrams that `recvfrom` returns -/
  senders : List InAddr
  /-- `recvfrom` then fails, and not because no datagram is left -/
  fails : Bool

/-- The socket is created and bound once: the return code of a call that has no
socket, and the static socket. -/
def openBroadcastSock (call : Listening) (broadcastSock : Int) : Int × Int :=
  if broadcastSock < 0 then
    if call.socket < 0 then (-1, call.socket)
    else if call.setsockopt < 0 then (-2, -1)
    else if call.bind < 0 then (-3, -1)
    else (0, call.socket)
  else (0, broadcastSock)

/-- `fs_listen_for_udp_broadcasts`. -/
def fsListenForUdpBroadcasts (call : Listening) (discovery : Discovery) : Int × Discovery :=
  let opened := openBroadcastSock call discovery.broadcastSock
  let discovery := { discovery with broadcastSock := opened.2 }
  if opened.1 ≠ 0 then (opened.1, discovery)
  else if call.poll < 0 then (-4, discovery)
  else if call.poll = 0 then (0, discovery)
  else
    let drained := drainBroadcasts call.senders 0 discovery.ipAddrList
    (if call.fails then -20 + -1 else drained.1, { discovery with ipAddrList := drained.2 })

/-- The senders of the datagrams that a call takes from the socket. -/
def delivered (call : Listening) (discovery : Discovery) : List InAddr :=
  if (openBroadcastSock call discovery.broadcastSock).1 = 0 ∧ 0 < call.poll then call.senders
  else []

/-- The list, and the senders of all datagrams so far. -/
structure DiscoveryHistory where
  discovery : Discovery
  senders : List InAddr

namespace DiscoveryHistory

/-- A zeroed list, whatever has become of the static socket in earlier calls. -/
def start (broadcastSock : Int) : DiscoveryHistory where
  discovery := ⟨broadcastSock, fun _ => .zero fsMaxIpAddressLength⟩
  senders := []

def listen (history : DiscoveryHistory) (call : Listening) : DiscoveryHistory where
  discovery := (fsListenForUdpBroadcasts call history.discovery).2
  senders := history.senders ++ delivered call history.discovery

/-- The list holds the addresses of `found`, and is empty behind them. -/
def Listed (ipAddrList : IpAddrList) (found : List InAddr) : Prop :=
  ∀ slot : Fin fsMaxNumberDevices,
    (ipAddrList slot).text = ((found.map InAddr.text)[slot.val]?).getD []

/-- The list holds all senders so far in the order of their first datagrams, as many
as it has room for. -/
def Accumulated (history : DiscoveryHistory) : Prop :=
  Listed history.discovery.ipAddrList (firstSeen fsMaxNumberDevices history.senders)

/-- The senders of the call begin with those found before, or are the first of them. -/
def Consistent (history : DiscoveryHistory) (call : Listening) : Prop :=
  let found := firstSeen fsMaxNumberDevices history.senders
  let heard := firstSeen fsMaxNumberDevices (delivered call history.discovery)
  heard <+: found ∨ found <+: heard

end DiscoveryHistory

section Addresses

theorem InAddr.isdigit_of_mem_cells {address : InAddr} {cell : List UInt8}
    (hcell : cell ∈ address.cells) {byte : UInt8} (hbyte : byte ∈ cell) :
    isdigit byte = true := by
  obtain ⟨part, _, rfl⟩ := List.mem_map.1 hcell
  exact isdigit_of_mem_decimal hbyte

theorem InAddr.not_mem_cells {address : InAddr} {byte : UInt8} (hbyte : isdigit byte = false) :
    ∀ cell ∈ address.cells, byte ∉ cell := by
  intro cell hcell hmem
  rw [isdigit_of_mem_cells hcell hmem] at hbyte
  exact absurd hbyte (by decide)

/-- Different addresses have different texts. -/
theorem InAddr.text_injective {address other : InAddr} (hsame : address.text = other.text) :
    address = other := by
  have hsplit : ∀ address : InAddr, address.text.splitOn point = address.cells := fun address =>
    List.splitOn_intercalate point (not_mem_cells (by decide)) (List.cons_ne_nil _ _)
  have hcells : address.cells = other.cells := by
    rw [← hsplit, ← hsplit, hsame]
  have hbyte : ∀ {byte part : UInt8}, decimal byte.toNat = decimal part.toNat → byte = part :=
    fun htext => UInt8.toNat_inj.1 (decimal_injective htext)
  simp only [cells, List.map_cons, List.cons.injEq] at hcells
  obtain ⟨hfirst, hsecond, hthird, hfourth, _⟩ := hcells
  cases address
  cases other
  rw [InAddr.mk.injEq]
  exact ⟨hbyte hfirst, hbyte hsecond, hbyte hthird, hbyte hfourth⟩

theorem InAddr.zero_not_mem_text (address : InAddr) : 0 ∉ address.text :=
  not_mem_joined (by decide) (not_mem_cells (by decide))

theorem InAddr.text_ne_nil (address : InAddr) : address.text ≠ [] := by
  intro hnil
  have hlength := @length_joined_add_one _ point address.cells (List.cons_ne_nil _ _)
  rw [show joined point address.cells = [] from hnil, List.length_nil] at hlength
  have hcount : address.cells.length = 4 := rfl
  omega

theorem InAddr.length_text_lt (address : InAddr) :
    address.text.length < fsMaxIpAddressLength := by
  have hcell : ∀ byte : UInt8, (decimal byte.toNat).length ≤ 3 := fun byte =>
    length_decimal_le (by decide) (byte.toNat_lt.trans (by decide))
  have hlength := @length_joined_add_one _ point address.cells (List.cons_ne_nil _ _)
  have hfirst := hcell address.first
  have hsecond := hcell address.second
  have hthird := hcell address.third
  have hfourth := hcell address.fourth
  simp only [cells, List.map_cons, List.map_nil, List.sum_cons, List.sum_nil, List.length_cons,
    List.length_nil] at hlength
  have htext : address.text.length = (joined point address.cells).length := rfl
  simp only [cells, List.map_cons, List.map_nil] at htext
  rw [htext]
  change _ < 64
  omega

theorem inetNtop_eq (address : InAddr) : inetNtop address 64 = some address.text :=
  if_pos address.length_text_lt

theorem text_printEntry (entry : Block fsMaxIpAddressLength) (address : InAddr) :
    (printEntry entry address.text).text = address.text := by
  have hlength := address.length_text_lt
  have htake : address.text.take (fsMaxIpAddressLength - 1) = address.text :=
    List.take_of_length_le (Nat.le_sub_one_of_lt hlength)
  have hfits : 0 + (address.text ++ [0]).length ≤ fsMaxIpAddressLength := by
    rw [List.length_append, List.length_singleton]
    omega
  rw [printEntry, htake, Block.text, Block.bytes_write hfits, List.take_zero, List.nil_append,
    List.append_assoc, List.singleton_append, cString_append_zero address.zero_not_mem_text]

end Addresses

namespace DiscoveryHistory

/-- The addresses of `found` have been written over the beginning of the list. -/
def Overwritten (before after : IpAddrList) (found : List InAddr) : Prop :=
  ∀ slot : Fin fsMaxNumberDevices,
    (after slot).text = ((found.map InAddr.text)[slot.val]?).getD (before slot).text

section Loop

variable {before ipAddrList : IpAddrList} {found : List InAddr}

/-- The loop sees a sender among the entries of this call when it is one of them. -/
theorem exists_entry_iff (hwritten : Overwritten before ipAddrList found)
    (hroom : found.length ≤ fsMaxNumberDevices) (address : InAddr) :
    (∃ i : Fin fsMaxNumberDevices, i.val < found.length ∧ (ipAddrList i).text = address.text) ↔
      address ∈ found := by
  have hentry : ∀ (i : Fin fsMaxNumberDevices) (hi : i.val < found.length),
      (ipAddrList i).text = found[i.val].text := by
    intro i hi
    rw [hwritten i, List.getElem?_map, List.getElem?_eq_getElem hi]
    rfl
  constructor
  · rintro ⟨i, hi, htext⟩
    rw [hentry i hi] at htext
    rw [← InAddr.text_injective htext]
    exact List.getElem_mem hi
  · intro hmem
    obtain ⟨i, hi, rfl⟩ := List.getElem_of_mem hmem
    exact ⟨⟨i, hi.trans_le hroom⟩, hi, hentry ⟨i, hi.trans_le hroom⟩ hi⟩

theorem overwritten_concat (hwritten : Overwritten before ipAddrList found)
    (hroom : found.length < fsMaxNumberDevices) (address : InAddr) :
    Overwritten before
      (Function.update ipAddrList ⟨found.length, hroom⟩
        (printEntry (ipAddrList ⟨found.length, hroom⟩) address.text))
      (found ++ [address]) := by
  intro slot
  rw [List.map_append]
  by_cases hslot : slot = ⟨found.length, hroom⟩
  · subst hslot
    rw [Function.update_self, text_printEntry]
    simp
  · have hne : slot.val ≠ found.length := fun hval => hslot (Fin.ext hval)
    rw [Function.update_of_ne hslot, hwritten slot, List.getElem?_append, List.length_map]
    split_ifs with hin
    · rfl
    · rw [List.getElem?_eq_none (by rw [List.length_map]; omega),
        List.getElem?_eq_none (by simp; omega)]

theorem drainBroadcasts_overwritten (senders : List InAddr)
    (hwritten : Overwritten before ipAddrList found)
    (hroom : found.length ≤ fsMaxNumberDevices) :
    Overwritten before (drainBroadcasts senders found.length ipAddrList).2
      (enterAll fsMaxNumberDevices found senders) := by
  induction senders generalizing ipAddrList found with
  | nil => exact hwritten
  | cons address later ih =>
      have henter : enterAll fsMaxNumberDevices found (address :: later) =
          enterAll fsMaxNumberDevices (enter fsMaxNumberDevices found address) later := rfl
      rw [drainBroadcasts, inetNtop_eq, henter, enter]
      simp only [exists_entry_iff hwritten hroom]
      by_cases hknown : address ∈ found
      · rw [if_pos hknown, if_pos (Or.inl hknown)]
        exact ih hwritten hroom
      · rw [if_neg hknown]
        by_cases hfull : found.length < fsMaxNumberDevices
        · have hnext := overwritten_concat hwritten hfull address
          have hlength : (found ++ [address]).length = found.length + 1 := by
            rw [List.length_append, List.length_singleton]
          rw [dif_pos hfull, if_neg (not_or_intro hknown (Nat.not_le.2 hfull)), ← hlength]
          apply ih hnext
          rw [hlength]
          exact hfull
        · rw [dif_neg hfull, if_pos (Or.inr (Nat.not_lt.1 hfull))]
          exact ih hwritten hroom

end Loop

/-- A call writes the senders it hears over the beginning of the list. -/
theorem listen_overwritten (history : DiscoveryHistory) (call : Listening) :
    Overwritten history.discovery.ipAddrList (history.listen call).discovery.ipAddrList
      (firstSeen fsMaxNumberDevices (delivered call history.discovery)) := by
  have hnothing : Overwritten history.discovery.ipAddrList history.discovery.ipAddrList [] :=
    fun slot => rfl
  rw [firstSeen_eq_enterAll]
  have hdrained := drainBroadcasts_overwritten (delivered call history.discovery) hnothing
    (Nat.zero_le _)
  have hlist : (history.listen call).discovery.ipAddrList =
      (drainBroadcasts (delivered call history.discovery) 0
        history.discovery.ipAddrList).2 := by
    simp only [listen, fsListenForUdpBroadcasts, delivered]
    by_cases hopen : (openBroadcastSock call history.discovery.broadcastSock).1 = 0
    · rw [if_neg (not_not.2 hopen)]
      rcases Int.lt_trichotomy call.poll 0 with hpoll | hpoll | hpoll
      · rw [if_pos hpoll, if_neg (by omega)]
        rfl
      · rw [if_neg (by omega), if_pos hpoll, if_neg (by omega)]
        rfl
      · have hreceived : (openBroadcastSock call history.discovery.broadcastSock).1 = 0 ∧
            0 < call.poll := ⟨hopen, hpoll⟩
        rw [if_neg (by omega), if_neg (by omega), if_pos hreceived]
    · rw [if_pos hopen, if_neg fun hboth => hopen hboth.1]
      rfl
  rw [hlist]
  exact hdrained

section Listed

variable {before after : IpAddrList} {known heard : List InAddr}

theorem listed_of_overwritten (hknown : Listed before known)
    (hwritten : Overwritten before after heard) :
    Listed after (heard ++ known.drop heard.length) := by
  intro slot
  rw [hwritten slot, hknown slot, List.map_append, List.map_drop, List.getElem?_append,
    List.length_map]
  split_ifs with hin
  · rw [List.getElem?_eq_getElem (by rwa [List.length_map])]
    rfl
  · rw [List.getElem?_eq_none (by rw [List.length_map]; omega), List.getElem?_drop,
      Nat.add_sub_cancel' (Nat.not_lt.1 hin)]
    rfl

/-- The list determines the addresses that it holds. -/
theorem listed_unique (hknown : Listed before known) (hheard : Listed before heard)
    (hknownRoom : known.length ≤ fsMaxNumberDevices)
    (hheardRoom : heard.length ≤ fsMaxNumberDevices) : known = heard := by
  apply List.ext_getElem?
  intro index
  by_cases hindex : index < fsMaxNumberDevices
  · have htexts := (hknown ⟨index, hindex⟩).symm.trans (hheard ⟨index, hindex⟩)
    simp only [List.getElem?_map] at htexts
    cases hfirst : known[index]? with
    | none =>
        cases hsecond : heard[index]? with
        | none => rfl
        | some address =>
            rw [hfirst, hsecond] at htexts
            exact absurd htexts.symm address.text_ne_nil
    | some address =>
        cases hsecond : heard[index]? with
        | none =>
            rw [hfirst, hsecond] at htexts
            exact absurd htexts address.text_ne_nil
        | some other =>
            rw [hfirst, hsecond] at htexts
            rw [InAddr.text_injective htexts]
  · rw [List.getElem?_eq_none (by omega), List.getElem?_eq_none (by omega)]

end Listed

/-- A call keeps an accumulated list accumulated exactly when it is consistent
with it. -/
theorem accumulated_listen_iff {history : DiscoveryHistory} (hlisted : history.Accumulated)
    (call : Listening) :
    (history.listen call).Accumulated ↔ history.Consistent call := by
  have hafter := listed_of_overwritten hlisted (listen_overwritten history call)
  have hroom : ∀ senders : List InAddr,
      (firstSeen fsMaxNumberDevices senders).length ≤ fsMaxNumberDevices :=
    length_firstSeen_le fsMaxNumberDevices
  rw [Consistent, ← overwritten_iff fsMaxNumberDevices]
  constructor
  · intro haccumulated
    apply listed_unique hafter haccumulated _ (hroom _)
    have hheard := hroom (delivered call history.discovery)
    have hknown := hroom history.senders
    rw [List.length_append, List.length_drop]
    omega
  · intro hsame
    rw [hsame] at hafter
    exact hafter

theorem accumulated_start (broadcastSock : Int) : (start broadcastSock).Accumulated := by
  intro slot
  rw [start, firstSeen_nil]
  rfl

/-- Repeated listening accumulates the senders in the list exactly in the runs
whose calls are all consistent with what was found before. -/
theorem accumulated_iff (broadcastSock : Int) (calls : List Listening) :
    (∀ front, front <+: calls → (run listen (start broadcastSock) front).Accumulated) ↔
      Along listen Consistent (start broadcastSock) calls :=
  @forall_prefix_run_iff _ _ listen Consistent (fun _ => True) Accumulated
    (fun _ _ _ _ _ => trivial) (fun _ call _ hlisted => accumulated_listen_iff hlisted call)
    (start broadcastSock) calls trivial (accumulated_start broadcastSock)

/-- A call on an open socket that hears one datagram. -/
def hears (address : InAddr) : Listening where
  socket := 3
  setsockopt := 0
  bind := 0
  poll := 1
  senders := [address]
  fails := false

/-- Two devices, each heard in a call of its own. -/
theorem not_accumulated_twoDevices :
    ¬ ∀ (broadcastSock : Int) (calls : List Listening),
      (run listen (start broadcastSock) calls).Accumulated := by
  intro hall
  have hlisted := hall (-1) [hears ⟨10, 0, 0, 1⟩, hears ⟨10, 0, 0, 2⟩] 0
  exact absurd hlisted (by decide +kernel)

end DiscoveryHistory

end Trifecta
