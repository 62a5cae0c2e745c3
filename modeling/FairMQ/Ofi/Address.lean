import FairMQ.Data.Keys
import FairMQ.Data.Pattern
import Mathlib.Algebra.Group.Nat.Defs

namespace FairMQ.Ofi

open FairMQ.Data

structure Address where
  protocol : String
  ip : String
  port : Nat
deriving DecidableEq, Repr

/-- `std::out_of_range` comes from `stoul`. -/
inductive AddressError where
  | contextError (message : String)
  | outOfRange
deriving DecidableEq, Repr

/-- What `.` stands for. -/
def notLineEnd (char : Char) : Bool :=
  char ≠ '\n' && char ≠ '\r'

/-- The expression `^([a-z]+)://([0-9]+\.[0-9]+\.[0-9]+\.[0-9]+):([0-9]+).*`. -/
def addressRegex : List (Repetition Char) :=
  [.oneOrMore Char.isLower] ++ Repetition.literal "://".toList ++
    [.oneOrMore Char.isDigit] ++ Repetition.literal ".".toList ++
    [.oneOrMore Char.isDigit] ++ Repetition.literal ".".toList ++
    [.oneOrMore Char.isDigit] ++ Repetition.literal ".".toList ++
    [.oneOrMore Char.isDigit] ++ Repetition.literal ":".toList ++
    [.oneOrMore Char.isDigit, .zeroOrMore notLineEnd]

def value (digits : List Char) : Nat :=
  Nat.ofDigitChars 10 digits 0

def stoul (digits : List Char) : Except AddressError Nat :=
  if value digits < 2 ^ 64 then .ok (value digits) else .error .outOfRange

/-- `ConvertAddress` from a text; the second group goes from the first number to the fourth. -/
def convertAddress (address : String) : Except AddressError Address :=
  match firstMatch addressRegex address.toList with
  | some [protocol, _, _, _, first, dot, second, dot', third, dot'', fourth, _, port, _] => do
      let port ← stoul port
      return {
        protocol := .ofList protocol
        ip := .ofList (first ++ dot ++ second ++ dot' ++ third ++ dot'' ++ fourth)
        port := port % 2 ^ 32 }
  | _ => .error (.contextError "Wrong format: Address must be in format prot://ip:port")

def verifyAddress (address : String) : Except AddressError Address := do
  let addr ← convertAddress address
  if addr.protocol = "tcp" ∨ addr.protocol = "verbs" then return addr
  else .error (.contextError "Wrong protocol: Supported protocols are: tcp:// and verbs://")

/-- The bytes of an `in_addr`, in their order. -/
structure InAddr where
  first : UInt8
  second : UInt8
  third : UInt8
  fourth : UInt8
deriving DecidableEq, Repr

/-- The port with its high byte first, for the family `AF_INET`. -/
structure SockaddrIn where
  sin_port : UInt8 × UInt8
  sin_addr : InAddr
deriving DecidableEq, Repr

/-- A zero may only stand alone. -/
def octet (text : List Char) : Option UInt8 :=
  if text ≠ [] ∧ text.all Char.isDigit ∧ (text.head? = some '0' → text.length = 1) ∧
      value text < 256 then
    some (.ofNat (value text))
  else none

def inetPton (ip : String) : Option InAddr :=
  match ip.toList.splitOn '.' with
  | [first, second, third, fourth] => do
      return ⟨← octet first, ← octet second, ← octet third, ← octet fourth⟩
  | _ => none

def inetNtoa (address : InAddr) : String :=
  toString address.first.toNat ++ "." ++ toString address.second.toNat ++ "." ++
    toString address.third.toNat ++ "." ++ toString address.fourth.toNat

/-- The argument is of 16 bits. -/
def htons (port : Nat) : UInt8 × UInt8 :=
  (.ofNat (port / 2 ^ 8), .ofNat port)

def ntohs (port : UInt8 × UInt8) : Nat :=
  port.1.toNat * 2 ^ 8 + port.2.toNat

/-- `ConvertAddress` to a socket address; `reason` is the text of `strerror(errno)`. -/
def Address.toSockaddr (reason : String) (address : Address) : Except AddressError SockaddrIn :=
  match inetPton address.ip with
  | some inAddr => .ok ⟨htons address.port, inAddr⟩
  | none => .error (.contextError ("Failed to convert given IP '" ++ address.ip ++
      "' to struct in_addr, reason: " ++ reason))

def SockaddrIn.toAddress (address : SockaddrIn) : Address where
  protocol := "tcp"
  ip := inetNtoa address.sin_addr
  port := ntohs address.sin_port

theorem ntohs_htons (port : Nat) : ntohs (htons port) = port % 2 ^ 16 := by
  simp only [ntohs, htons, UInt8.toNat_ofNat']
  omega

structure Fields where
  protocol : List Char
  first : List Char
  second : List Char
  third : List Char
  fourth : List Char
  port : List Char
  rest : List Char

namespace Fields

def ip (fields : Fields) : List Char :=
  fields.first ++ '.' :: (fields.second ++ '.' :: (fields.third ++ '.' :: fields.fourth))

def text (fields : Fields) : List Char :=
  fields.protocol ++ ':' :: '/' :: '/' ::
    (fields.first ++ '.' :: (fields.second ++ '.' :: (fields.third ++ '.' ::
      (fields.fourth ++ ':' :: (fields.port ++ fields.rest)))))

def pieces (fields : Fields) : List (List Char) :=
  [fields.protocol, [':'], ['/'], ['/'], fields.first, ['.'], fields.second, ['.'], fields.third,
    ['.'], fields.fourth, [':'], fields.port, fields.rest]

structure Valid (fields : Fields) : Prop where
  protocol : Word Char.isLower fields.protocol
  first : Word Char.isDigit fields.first
  second : Word Char.isDigit fields.second
  third : Word Char.isDigit fields.third
  fourth : Word Char.isDigit fields.fourth
  port : Word Char.isDigit fields.port
  rest : ∀ char ∈ fields.rest, notLineEnd char = true

structure Reads (fields : Fields) (address : String) : Prop extends fields.Valid where
  text : address.toList = fields.text
  maximal : ∀ char ∈ fields.rest.head?, char.isDigit = false

instance (fields : Fields) : Decidable fields.Valid :=
  decidable_of_iff (Word Char.isLower fields.protocol ∧
    (∀ number ∈ [fields.first, fields.second, fields.third, fields.fourth, fields.port],
      Word Char.isDigit number) ∧ fields.rest.all notLineEnd = true)
    ⟨fun ⟨protocol, numbers, rest⟩ => by
      simp only [List.forall_mem_cons] at numbers
      exact ⟨protocol, numbers.1, numbers.2.1, numbers.2.2.1, numbers.2.2.2.1, numbers.2.2.2.2.1,
        List.all_eq_true.mp rest⟩,
    fun valid => ⟨valid.protocol, by
      simp [valid.first, valid.second, valid.third, valid.fourth, valid.port],
      List.all_eq_true.mpr valid.rest⟩⟩

instance (fields : Fields) (address : String) : Decidable (fields.Reads address) :=
  decidable_of_iff (fields.Valid ∧ address.toList = fields.text ∧
    fields.rest.head?.all (fun char => !char.isDigit) = true)
    ⟨fun ⟨valid, text, maximal⟩ => ⟨valid, text, by simpa [Option.all_eq_true] using maximal⟩,
      fun reads => ⟨reads.toValid, reads.text, by simpa [Option.all_eq_true] using reads.maximal⟩⟩

def address (fields : Fields) : Address where
  protocol := .ofList fields.protocol
  ip := .ofList fields.ip
  port := value fields.port % 2 ^ 32

end Fields

theorem Fields.pieces_flatten (fields : Fields) : fields.pieces.flatten = fields.text := by
  simp [pieces, text]

section Regex

open Repetition

theorem addressRegex_eq :
    addressRegex =
      [oneOrMore Char.isLower, once (· = ':'), once (· = '/'), once (· = '/'),
        oneOrMore Char.isDigit, once (· = '.'), oneOrMore Char.isDigit, once (· = '.'),
        oneOrMore Char.isDigit, once (· = '.'), oneOrMore Char.isDigit, once (· = ':'),
        oneOrMore Char.isDigit, zeroOrMore notLineEnd] := rfl

theorem splits_addressRegex_iff {text : List Char} {pieces : List (List Char)} :
    Splits addressRegex text pieces ↔
      ∃ fields : Fields, pieces = fields.pieces ∧ fields.Valid ∧ text = fields.text := by
  constructor
  · intro isSplit
    obtain ⟨rfl, takes⟩ := isSplit
    simp only [addressRegex_eq, List.forall₂_cons_left_iff, List.forall₂_nil_left_iff,
      takes_oneOrMore_iff, takes_once_iff, takes_zeroOrMore_iff] at takes
    obtain ⟨protocol, _, isProtocol, ⟨_, _, rfl, ⟨_, _, rfl, ⟨_, _, rfl, ⟨first, _, isFirst,
      ⟨_, _, rfl, ⟨second, _, isSecond, ⟨_, _, rfl, ⟨third, _, isThird, ⟨_, _, rfl,
      ⟨fourth, _, isFourth, ⟨_, _, rfl, ⟨port, _, isPort, ⟨rest, _, isRest, rfl, rfl⟩, rfl⟩, rfl⟩,
      rfl⟩, rfl⟩, rfl⟩, rfl⟩, rfl⟩, rfl⟩, rfl⟩, rfl⟩, rfl⟩, rfl⟩, rfl⟩ := takes
    refine ⟨⟨protocol, first, second, third, fourth, port, rest⟩, rfl,
      ⟨isProtocol, isFirst, isSecond, isThird, isFourth, isPort, isRest⟩, ?_⟩
    exact Fields.pieces_flatten ⟨protocol, first, second, third, fourth, port, rest⟩
  · intro found
    obtain ⟨fields, rfl, valid, rfl⟩ := found
    refine ⟨fields.pieces_flatten, ?_⟩
    simp only [addressRegex_eq, Fields.pieces, List.forall₂_cons, takes_oneOrMore_iff,
      takes_once_iff, takes_zeroOrMore_iff, true_and]
    exact ⟨valid.protocol, valid.first, valid.second, valid.third, valid.fourth, valid.port,
      valid.rest, .nil⟩

end Regex

theorem Fields.Valid.unique {fields others : Fields} (valid : fields.Valid) (other : others.Valid)
    (same : fields.text = others.text) :
    fields.protocol = others.protocol ∧ fields.first = others.first ∧
      fields.second = others.second ∧ fields.third = others.third ∧
      fields.fourth = others.fourth ∧ fields.port ++ fields.rest = others.port ++ others.rest := by
  have colon : ∀ {piece : List Char}, Word Char.isDigit piece → ':' ∉ piece :=
    fun word => word.free (by decide)
  have dot : ∀ {piece : List Char}, Word Char.isDigit piece → '.' ∉ piece :=
    fun word => word.free (by decide)
  obtain ⟨protocol, same⟩ := first_cut_injective (valid.protocol.free (by decide))
    (other.protocol.free (by decide)) same
  obtain ⟨first, same⟩ := first_cut_injective (dot valid.first) (dot other.first)
    (List.cons.inj (List.cons.inj same).2).2
  obtain ⟨second, same⟩ := first_cut_injective (dot valid.second) (dot other.second) same
  obtain ⟨third, same⟩ := first_cut_injective (dot valid.third) (dot other.third) same
  obtain ⟨fourth, same⟩ := first_cut_injective (colon valid.fourth) (colon other.fourth) same
  exact ⟨protocol, first, second, third, fourth, same⟩

theorem Fields.Reads.takeWhile {fields : Fields} {address : String} (reads : fields.Reads address) :
    (fields.port ++ fields.rest).takeWhile Char.isDigit = fields.port := by
  rw [List.takeWhile_append_of_pos reads.port.holds]
  cases isRest : fields.rest with
  | nil => simp
  | cons char rest =>
      have noDigit := reads.maximal char (by rw [isRest]; rfl)
      rw [List.takeWhile_cons_of_neg (by simp [noDigit]), List.append_nil]

theorem Fields.Reads.greedier {fields others : Fields} {address : String}
    (reads : fields.Reads address) (other : others.Valid) (same : address.toList = others.text) :
    Greedier fields.pieces others.pieces := by
  obtain ⟨protocol, first, second, third, fourth, tails⟩ :=
    reads.toValid.unique other (reads.text.symm.trans same)
  have shorter : others.port.length ≤ fields.port.length := by
    rw [← reads.takeWhile, tails, le_length_takeWhile_iff, List.take_left, List.length_append]
    exact ⟨Nat.le_add_right _ _, other.port.holds⟩
  have ports : Greedier [fields.port, fields.rest] [others.port, others.rest] := by
    rcases Nat.eq_or_lt_of_le shorter with length | less
    · refine .same length.symm (.same ?_ .nil)
      have lengths := congrArg List.length tails
      simp only [List.length_append] at lengths
      omega
    · exact .longer less
  have front : ∀ (piece : List Char) {pieces others : List (List Char)},
      Greedier pieces others → Greedier (piece :: pieces) (piece :: others) :=
    fun _ _ _ rest => .same rfl rest
  simp only [pieces, protocol, first, second, third, fourth]
  repeat first | exact ports | apply front

theorem Fields.Valid.exists_reads {fields : Fields} {address : String} (valid : fields.Valid)
    (text : address.toList = fields.text) : ∃ longest : Fields, longest.Reads address := by
  refine ⟨{ fields with
    port := fields.port ++ fields.rest.takeWhile Char.isDigit
    rest := fields.rest.dropWhile Char.isDigit },
    { valid with
      port := ⟨by simp [valid.port.nonempty], ?_⟩
      rest := fun char member => valid.rest char (List.dropWhile_sublist _ |>.mem member)
      text := ?_
      maximal := ?_ }⟩
  · intro char member
    rcases List.mem_append.mp member with isPort | added
    · exact valid.port.holds char isPort
    · exact List.mem_takeWhile_imp added
  · rw [text, Fields.text, Fields.text, List.append_assoc, List.takeWhile_append_dropWhile]
  · intro char isHead
    have notHeld := List.head?_dropWhile_not Char.isDigit fields.rest
    rw [Option.mem_def.mp isHead] at notHeld
    exact notHeld

theorem firstMatch_addressRegex_iff {address : String} {pieces : List (List Char)} :
    firstMatch addressRegex address.toList = some pieces ↔
      ∃ fields : Fields, pieces = fields.pieces ∧ fields.Reads address := by
  constructor
  · intro matched
    obtain ⟨isSplit, greediest⟩ := firstMatch_eq_some_iff.mp matched
    obtain ⟨fields, rfl, valid, text⟩ := splits_addressRegex_iff.mp isSplit
    obtain ⟨longest, reads⟩ := valid.exists_reads text
    have longestSplit : Splits addressRegex address.toList longest.pieces :=
      splits_addressRegex_iff.mpr ⟨longest, rfl, reads.toValid, reads.text⟩
    have same := (greediest _ longestSplit).antisymm (reads.greedier valid text)
      (isSplit.whole.trans longestSplit.whole.symm)
    exact ⟨longest, same, reads⟩
  · intro found
    obtain ⟨fields, rfl, reads⟩ := found
    refine firstMatch_eq_some_iff.mpr ⟨?_, ?_⟩
    · exact splits_addressRegex_iff.mpr ⟨fields, rfl, reads.toValid, reads.text⟩
    · intro pieces isSplit
      obtain ⟨others, rfl, valid, text⟩ := splits_addressRegex_iff.mp isSplit
      exact reads.greedier valid text

theorem Fields.Reads.unique {fields others : Fields} {address : String}
    (reads : fields.Reads address) (other : others.Reads address) :
    fields.port = others.port ∧ fields.rest = others.rest := by
  have same := firstMatch_addressRegex_iff.mpr ⟨fields, rfl, reads⟩
  rw [firstMatch_addressRegex_iff.mpr ⟨others, rfl, other⟩, Option.some.injEq] at same
  simp only [pieces, List.cons.injEq, true_and, and_true] at same
  exact ⟨same.2.2.2.2.2.1.symm, same.2.2.2.2.2.2.symm⟩

def Supported (protocol : String) : Prop :=
  protocol = "tcp" ∨ protocol = "verbs"

theorem convertAddress_of_reads {fields : Fields} {address : String}
    (reads : fields.Reads address) :
    convertAddress address =
      if value fields.port < 2 ^ 64 then .ok fields.address else .error .outOfRange := by
  have matched := firstMatch_addressRegex_iff.mpr ⟨fields, rfl, reads⟩
  simp only [convertAddress, matched, Fields.pieces, stoul]
  split
  · simp [bind, Except.bind, Fields.address, Fields.ip, pure, Except.pure]
  · rfl

theorem convertAddress_ok_iff {address : String} {addr : Address} :
    convertAddress address = .ok addr ↔
      ∃ fields : Fields, fields.Reads address ∧ value fields.port < 2 ^ 64 ∧
        addr = fields.address := by
  constructor
  · intro converted
    cases matched : firstMatch addressRegex address.toList with
    | none =>
        simp only [convertAddress, matched] at converted
        cases converted
    | some pieces =>
        obtain ⟨fields, _, reads⟩ := firstMatch_addressRegex_iff.mp matched
        rw [convertAddress_of_reads reads] at converted
        split at converted
        · cases converted
          exact ⟨fields, reads, by assumption, rfl⟩
        · cases converted
  · intro found
    obtain ⟨fields, reads, bounded, rfl⟩ := found
    rw [convertAddress_of_reads reads, if_pos bounded]

theorem verifyAddress_ok_iff {address : String} {addr : Address} :
    verifyAddress address = .ok addr ↔
      ∃ fields : Fields, fields.Reads address ∧ value fields.port < 2 ^ 64 ∧
        Supported (.ofList fields.protocol) ∧ addr = fields.address := by
  constructor
  · intro verified
    cases converted : convertAddress address with
    | error reason =>
        simp only [verifyAddress, converted] at verified
        cases verified
    | ok result =>
        obtain ⟨fields, reads, bounded, rfl⟩ := convertAddress_ok_iff.mp converted
        simp only [verifyAddress, converted, bind, Except.bind] at verified
        split at verified
        · cases verified
          exact ⟨fields, reads, bounded, by assumption, rfl⟩
        · cases verified
  · intro found
    obtain ⟨fields, reads, bounded, supported, rfl⟩ := found
    have converted := convertAddress_ok_iff.mpr ⟨fields, reads, bounded, rfl⟩
    simp only [verifyAddress, converted, bind, Except.bind]
    exact if_pos supported

def WellFormed (address : String) : Prop :=
  ∃ protocol first second third fourth port : List Char,
    Supported (.ofList protocol) ∧ (∀ number ∈ [first, second, third, fourth, port],
      Word Char.isDigit number) ∧ value port < 65536 ∧
    address.toList = protocol ++ "://".toList ++ first ++ ".".toList ++ second ++ ".".toList ++
      third ++ ".".toList ++ fourth ++ ":".toList ++ port

def Fields.Exact (fields : Fields) : Prop :=
  fields.rest = [] ∧ value fields.port < 65536

theorem Supported.word {protocol : List Char} (supported : Supported (.ofList protocol)) :
    Word Char.isLower protocol := by
  have letters : protocol = "tcp".toList ∨ protocol = "verbs".toList :=
    supported.imp (fun same => by rw [← same, String.toList_ofList])
      (fun same => by rw [← same, String.toList_ofList])
  rcases letters with rfl | rfl
  · exact ⟨by simp, by simp⟩
  · exact ⟨by simp, by simp⟩

theorem wellFormed_iff {address : String} :
    WellFormed address ↔
      ∃ fields : Fields, fields.Reads address ∧ Supported (.ofList fields.protocol) ∧
        fields.Exact := by
  constructor
  · intro wellFormed
    obtain ⟨protocol, first, second, third, fourth, port, supported, numbers, bounded, text⟩ :=
      wellFormed
    simp only [List.forall_mem_cons] at numbers
    obtain ⟨isFirst, isSecond, isThird, isFourth, isPort, _⟩ := numbers
    refine ⟨⟨protocol, first, second, third, fourth, port, []⟩,
      ⟨⟨supported.word, isFirst, isSecond, isThird, isFourth, isPort, by simp⟩, ?_, by simp⟩,
      supported, rfl, bounded⟩
    simpa [Fields.text] using text
  · intro found
    obtain ⟨fields, reads, supported, nothing, bounded⟩ := found
    refine ⟨fields.protocol, fields.first, fields.second, fields.third, fields.fourth,
      fields.port, supported, ?_, bounded, ?_⟩
    · simp only [List.forall_mem_cons]
      exact ⟨reads.first, reads.second, reads.third, reads.fourth, reads.port, by simp⟩
    · rw [reads.text]
      simp [Fields.text, nothing]

/-- A text is accepted as the expression reads it, which is right for a text exactly if an
accepted one ends with a port of 16 bits; and of the ports exactly those survive in a socket
address. -/
theorem address_parsing_iff (address : String) :
    (((∃ addr, verifyAddress address = .ok addr) ↔ WellFormed address) ↔
      ∀ fields : Fields, fields.Reads address → Supported (.ofList fields.protocol) →
        value fields.port < 2 ^ 64 → fields.Exact) ∧
    ∀ (addr : Address) (inAddr : InAddr) (reason : String), verifyAddress address = .ok addr →
      inetPton addr.ip = some inAddr → inetNtoa inAddr = addr.ip →
        ∃ sa, addr.toSockaddr reason = .ok sa ∧ sa.toAddress.ip = addr.ip ∧
          (sa.toAddress.port = addr.port ↔ addr.port < 65536) := by
  refine ⟨⟨?_, ?_⟩, ?_⟩
  · intro agrees fields reads supported bounded
    obtain ⟨exact, isExact, _, nothing, small⟩ := wellFormed_iff.mp (agrees.mp
      ⟨fields.address, verifyAddress_ok_iff.mpr ⟨fields, reads, bounded, supported, rfl⟩⟩)
    obtain ⟨port, rest⟩ := reads.unique isExact
    exact ⟨rest.trans nothing, by rwa [port]⟩
  · intro each
    constructor
    · intro accepted
      obtain ⟨_, verified⟩ := accepted
      obtain ⟨fields, reads, bounded, supported, _⟩ := verifyAddress_ok_iff.mp verified
      exact wellFormed_iff.mpr ⟨fields, reads, supported, each fields reads supported bounded⟩
    · intro wellFormed
      obtain ⟨fields, reads, supported, _, small⟩ := wellFormed_iff.mp wellFormed
      have bounded : value fields.port < 2 ^ 64 := by omega
      exact ⟨fields.address, verifyAddress_ok_iff.mpr ⟨fields, reads, bounded, supported, rfl⟩⟩
  · intro addr inAddr reason _ accepted canonical
    have cut : (SockaddrIn.toAddress ⟨htons addr.port, inAddr⟩).port = addr.port % 2 ^ 16 :=
      ntohs_htons addr.port
    refine ⟨⟨htons addr.port, inAddr⟩, by rw [Address.toSockaddr, accepted], canonical, ?_⟩
    rw [cut]
    omega

theorem local_address_parsed :
    ((∃ addr, verifyAddress "verbs://10.0.0.7:5555" = .ok addr) ↔
        WellFormed "verbs://10.0.0.7:5555") ∧
      verifyAddress "verbs://10.0.0.7:5555" = .ok ⟨"verbs", "10.0.0.7", 5555⟩ ∧
      ∃ sa, Address.toSockaddr "" ⟨"verbs", "10.0.0.7", 5555⟩ = .ok sa ∧
        sa.toAddress.ip = "10.0.0.7" ∧ sa.toAddress.port = 5555 := by
  have verified : verifyAddress "verbs://10.0.0.7:5555" = .ok ⟨"verbs", "10.0.0.7", 5555⟩ := by
    decide +kernel
  have isRead : Fields.Reads ⟨"verbs".toList, "10".toList, "0".toList, "0".toList, "7".toList,
      "5555".toList, []⟩ "verbs://10.0.0.7:5555" := by decide
  obtain ⟨agrees, survives⟩ := address_parsing_iff "verbs://10.0.0.7:5555"
  obtain ⟨sa, isSa, ip, port⟩ := survives _ ⟨10, 0, 0, 7⟩ "" verified (by decide) (by decide)
  refine ⟨agrees.mpr ?_, verified, sa, isSa, ip, port.mpr (by decide)⟩
  intro fields reads _ _
  obtain ⟨isPort, nothing⟩ := reads.unique isRead
  exact ⟨nothing, by rw [isPort]; decide⟩

/-- A path behind the port and a port of 17 bits are accepted, and the port gets cut. -/
theorem long_port_accepted :
    verifyAddress "tcp://10.0.0.7:70000/x" = .ok ⟨"tcp", "10.0.0.7", 70000⟩ ∧
      ¬ WellFormed "tcp://10.0.0.7:70000/x" ∧
      ∃ sa, Address.toSockaddr "" ⟨"tcp", "10.0.0.7", 70000⟩ = .ok sa ∧
        sa.toAddress = ⟨"tcp", "10.0.0.7", 4464⟩ := by
  have isRead : Fields.Reads ⟨"tcp".toList, "10".toList, "0".toList, "0".toList, "7".toList,
      "70000".toList, "/x".toList⟩ "tcp://10.0.0.7:70000/x" := by decide
  refine ⟨by decide +kernel, ?_, ⟨htons 70000, 10, 0, 0, 7⟩, by decide, by decide⟩
  intro wellFormed
  obtain ⟨fields, reads, _, nothing, _⟩ := wellFormed_iff.mp wellFormed
  rw [(reads.unique isRead).2] at nothing
  cases nothing

end FairMQ.Ofi
