import AioProxmox.Collections.Distinct
import AioProxmox.Text.Hexadecimal
import Mathlib.Data.Set.List
import Mathlib.Data.String.Basic

/-!
# Nodes - the addresses of the ports

The listing of a node's network has no field for hardware addresses.  A physical port has a name
among its {lit}`altnames` that is made of its address, and the address is read off there and
told in the common form, with colons.

Main results:

- Definitions {lit}`NodeInterface.mac` and {lit}`nodeMacAddresses`.
- Theorem {lit}`macDigits?_eq_some_iff`: the pattern takes what the name was made of.
- Theorem {lit}`HardwareAddress.text_injective`: no two addresses are told alike.
- Theorem {lit}`nodeMacAddresses_exact`: the addresses of the ports, each once, in their order.
-/

namespace AioProxmox

open Hexadecimal

/-! ## The listing -/

/-- {lit}`NodeInterface`, with the fields that tell its address. -/
structure NodeInterface where
  iface : String
  type : Option String := none
  altnames : List String := []

/-- Where {lit}`$` stands: at the end, and before a newline there. -/
def atEnd : List Char → Bool
  | [] => true
  | ['\n'] => true
  | _ => false

/-- {lit}`MAC_ALTNAME.match(altname)`, its group. -/
def macDigits? (altname : String) : Option (List Char) :=
  match altname.toList with
  | 'e' :: 'n' :: 'x' :: rest =>
      if (rest.take 12).length = 12 && (rest.take 12).all isDigit && atEnd (rest.drop 12) then
        some (rest.take 12)
      else none
  | _ => none

/-- {lit}`":".join(digits[i : i + 2] for i in range(0, 12, 2))`. -/
def macText (digits : List Char) : String :=
  ":".intercalate
    ((List.range 6).map fun i => String.ofList ((digits.drop (2 * i)).take 2))

/-- {lit}`NodeInterface.mac`. -/
def NodeInterface.mac (self : NodeInterface) : Option String :=
  if self.type ≠ some "eth" then none
  else (self.altnames.findSome? macDigits?).map macText

/-- One turn of the loop of {lit}`node_mac_addresses`. -/
def addMac (found : List String) (interface : NodeInterface) : List String :=
  match interface.mac with
  | some mac => if mac ≠ "" ∧ mac ∉ found then found ++ [mac] else found
  | none => found

/-- {lit}`node_mac_addresses`. -/
def nodeMacAddresses (interfaces : List NodeInterface) : List String :=
  interfaces.foldl addMac []

/-! ## Hardware addresses -/

/-- A hardware address. -/
structure HardwareAddress where
  octets : List Octet
  six : octets.length = 6

namespace HardwareAddress

/-- The name that an address gives to its port. -/
def altname (self : HardwareAddress) : String :=
  "enx" ++ String.ofList (write self.octets)

/-- The octets with colons between them. -/
def text (self : HardwareAddress) : String :=
  ":".intercalate (self.octets.map fun octet => String.ofList (octetDigits octet))

/-- A name tells an address, whether a newline ends it or not. -/
def NamedBy (self : HardwareAddress) (altname : String) : Prop :=
  altname = self.altname ∨ altname = self.altname ++ "\n"

/-- Addresses that are written alike are the same. -/
theorem ext {a b : HardwareAddress} (h : write a.octets = write b.octets) : a = b := by
  rcases a with ⟨octets, six⟩
  rcases b with ⟨octets', six'⟩
  rw [HardwareAddress.mk.injEq]
  exact write_injective h

/-- The text of an address puts colons between its octets. -/
theorem macText_write (self : HardwareAddress) : macText (write self.octets) = self.text := by
  rcases self with ⟨octets, six⟩
  rcases octets with _ | ⟨o1, _ | ⟨o2, _ | ⟨o3, _ | ⟨o4, _ | ⟨o5, _ | ⟨o6, rest⟩⟩⟩⟩⟩⟩
  all_goals try simp at six
  subst six
  rfl

/-- The octets can be taken apart again at the colons. -/
theorem splitOn_text (self : HardwareAddress) :
    self.text.toList.splitOn ':' = self.octets.map octetDigits := by
  have hchars : self.text.toList = [':'].intercalate (self.octets.map octetDigits) := by
    unfold text
    rw [String.toList_intercalate, List.map_map]
    congr 1
    exact List.map_congr_left fun octet _ => String.toList_ofList
  have hcolons : ∀ part ∈ self.octets.map octetDigits, ':' ∉ part := by
    intro part hpart hcolon
    rcases List.mem_map.mp hpart with ⟨octet, hoctet, rfl⟩
    have hdigit : ':' ∈ digits :=
      mem_digits_of_mem_write (List.mem_flatMap.mpr ⟨octet, hoctet, hcolon⟩)
    contradiction
  have hne : self.octets.map octetDigits ≠ [] := by
    intro hnil
    have hsix := self.six
    rw [List.map_eq_nil_iff.mp hnil] at hsix
    contradiction
  rw [hchars, List.splitOn_intercalate ':' hcolons hne]

/-- The texts tell the addresses apart. -/
theorem text_injective : Function.Injective text := by
  intro a b h
  have hoctets : a.octets = b.octets := by
    apply List.map_injective_iff.mpr octetDigits_injective
    rw [← splitOn_text, ← splitOn_text, h]
  exact ext (congrArg write hoctets)

/-- No address has an empty text. -/
theorem text_ne (self : HardwareAddress) : self.text ≠ "" := by
  intro h
  have hparts := self.splitOn_text
  have hlength := congrArg List.length hparts
  rw [h, List.length_map, self.six] at hlength
  contradiction

end HardwareAddress

/-- A match ends at the end of the text or before its last newline. -/
theorem atEnd_iff {rest : List Char} : atEnd rest = true ↔ rest = [] ∨ rest = ['\n'] := by
  unfold atEnd
  split <;> simp_all

/-- What the pattern takes out of a name are the digits of the address that the name tells. -/
theorem macDigits?_eq_some_iff {altname : String} {found : List Char} :
    macDigits? altname = some found ↔
      ∃ address : HardwareAddress, address.NamedBy altname ∧ found = write address.octets := by
  constructor
  · intro h
    unfold macDigits? at h
    split at h
    · rename_i rest hchars
      split_ifs at h with hmatches
      rw [Bool.and_eq_true, Bool.and_eq_true, decide_eq_true_eq, List.all_eq_true,
        atEnd_iff] at hmatches
      rcases hmatches with ⟨⟨hlength, hdigits⟩, hend⟩
      rw [Option.some.injEq] at h
      subst h
      rcases exists_write (n := 6) hlength fun c hc => isDigit_iff.mp (hdigits c hc) with
        ⟨octets, hsix, hwrite⟩
      refine ⟨⟨octets, hsix⟩, ?_, hwrite.symm⟩
      have hrest : altname.toList = "enx".toList ++ write octets ++ rest.drop 12 := by
        rw [hwrite, List.append_assoc, List.take_append_drop, hchars]
        rfl
      rcases hend with hend | hend
      · left
        apply String.toList_injective
        rw [hrest, hend, HardwareAddress.altname]
        simp
      · right
        apply String.toList_injective
        rw [hrest, hend, HardwareAddress.altname]
        simp
    · contradiction
  · rintro ⟨address, hnamed, rfl⟩
    have htwelve : (write address.octets).length = 12 := by
      rw [length_write, address.six]
    have htake : ∀ rest, (write address.octets ++ rest).take 12 = write address.octets :=
      fun rest => by rw [← htwelve, List.take_left]
    have hdrop : ∀ rest, (write address.octets ++ rest).drop 12 = rest :=
      fun rest => by rw [← htwelve, List.drop_left]
    obtain ⟨rest, hchars, hend⟩ : ∃ rest, altname.toList =
        'e' :: 'n' :: 'x' :: (write address.octets ++ rest) ∧ (rest = [] ∨ rest = ['\n']) := by
      rcases hnamed with rfl | rfl
      · exact ⟨[], by simp [HardwareAddress.altname], .inl rfl⟩
      · exact ⟨['\n'], by simp [HardwareAddress.altname], .inr rfl⟩
    unfold macDigits?
    have hdigits : (write address.octets).all isDigit = true :=
      List.all_eq_true.mpr fun c hc => isDigit_iff.mpr (mem_digits_of_mem_write hc)
    simp only [hchars, htake, hdrop]
    rw [htwelve, hdigits, atEnd_iff.mpr hend]
    rfl

/-! ## What is listed -/

/-- A port has the address that the first of its names with an address tells. -/
structure NodeInterface.Has (port : NodeInterface) (address : HardwareAddress) : Prop where
  physical : port.type = some "eth"
  named : ∃ before altname after, port.altnames = before ++ altname :: after ∧
    address.NamedBy altname ∧
      ∀ other ∈ before, ∀ address' : HardwareAddress, ¬address'.NamedBy other

/-- What a port tells is the text of an address that it has. -/
theorem NodeInterface.mac_eq_some_iff {port : NodeInterface} {told : String} :
    port.mac = some told ↔ ∃ address, port.Has address ∧ told = address.text := by
  have hnone : ∀ {name : String}, macDigits? name = none ↔
      ∀ address : HardwareAddress, ¬address.NamedBy name := by
    intro name
    rw [Option.eq_none_iff_forall_ne_some]
    constructor
    · exact fun h address hnamed => h _ (macDigits?_eq_some_iff.mpr ⟨address, hnamed, rfl⟩)
    · intro h found hfound
      rcases macDigits?_eq_some_iff.mp hfound with ⟨address, hnamed, -⟩
      exact h address hnamed
  constructor
  · intro h
    unfold mac at h
    split_ifs at h with htype
    rw [not_not] at htype
    rcases Option.map_eq_some_iff.mp h with ⟨found, hfound, rfl⟩
    rcases List.findSome?_eq_some_iff.mp hfound with ⟨before, name, after, hnames, hname, hbefore⟩
    rcases macDigits?_eq_some_iff.mp hname with ⟨address, hnamed, rfl⟩
    exact ⟨address, ⟨htype, before, name, after, hnames, hnamed,
      fun other hother => hnone.mp (hbefore other hother)⟩, address.macText_write⟩
  · rintro ⟨address, ⟨htype, before, name, after, hnames, hnamed, hbefore⟩, rfl⟩
    have hfound : port.altnames.findSome? macDigits? = some (write address.octets) :=
      List.findSome?_eq_some_iff.mpr ⟨before, name, after, hnames,
        macDigits?_eq_some_iff.mpr ⟨address, hnamed, rfl⟩,
        fun other hother => hnone.mpr (hbefore other hother)⟩
    unfold mac
    rw [if_neg (not_not.mpr htype), hfound, Option.map_some, address.macText_write]

/-- The loop adds what is new among the addresses of the ports. -/
theorem foldl_addMac (found : List String) (interfaces : List NodeInterface) :
    interfaces.foldl addMac found =
      Collections.appendNew found (interfaces.filterMap NodeInterface.mac) := by
  induction interfaces generalizing found with
  | nil => simp
  | cons port interfaces ih =>
      rw [List.foldl_cons, ih, addMac]
      cases hmac : port.mac with
      | none => rw [List.filterMap_cons_none hmac]
      | some mac =>
          rcases NodeInterface.mac_eq_some_iff.mp hmac with ⟨address, -, rfl⟩
          rw [List.filterMap_cons_some hmac, Collections.appendNew_cons]
          by_cases hold : address.text ∈ found
          · simp [hold]
          · simp [hold, address.text_ne]

/-- What is listed are the texts of the addresses of the ports, each address once, and those
of the ports that come first come first. -/
theorem nodeMacAddresses_exact (interfaces : List NodeInterface) :
    (∃ addresses : List HardwareAddress, addresses.Nodup ∧
      nodeMacAddresses interfaces = addresses.map HardwareAddress.text ∧
      ∀ address, address ∈ addresses ↔ ∃ port ∈ interfaces, port.Has address) ∧
    ∀ more, nodeMacAddresses interfaces <+: nodeMacAddresses (interfaces ++ more) := by
  have hlist : nodeMacAddresses interfaces =
      Collections.appendNew [] (interfaces.filterMap NodeInterface.mac) :=
    foldl_addMac [] interfaces
  have hmem : ∀ mac, mac ∈ nodeMacAddresses interfaces ↔
      ∃ port ∈ interfaces, ∃ address, port.Has address ∧ mac = address.text := by
    intro mac
    simp [hlist, NodeInterface.mac_eq_some_iff]
  have hnodup : (nodeMacAddresses interfaces).Nodup := by
    rw [hlist]
    exact Collections.nodup_appendNew List.nodup_nil _
  constructor
  · obtain ⟨addresses, haddresses⟩ :
        nodeMacAddresses interfaces ∈ Set.range (List.map HardwareAddress.text) := by
      rw [Set.range_list_map]
      intro mac hmac
      rcases (hmem mac).mp hmac with ⟨-, -, address, -, rfl⟩
      exact ⟨address, rfl⟩
    rw [← haddresses] at hnodup
    refine ⟨addresses, hnodup.of_map _, haddresses.symm, fun address => ?_⟩
    rw [← List.mem_map_of_injective HardwareAddress.text_injective, haddresses, hmem]
    constructor
    · rintro ⟨port, hport, other, hhas, heq⟩
      rw [HardwareAddress.text_injective heq]
      exact ⟨port, hport, hhas⟩
    · rintro ⟨port, hport, hhas⟩
      exact ⟨port, hport, address, hhas, rfl⟩
  · intro more
    rw [nodeMacAddresses, nodeMacAddresses, List.foldl_append, foldl_addMac _ more]
    exact Collections.prefix_appendNew _ _

end AioProxmox
