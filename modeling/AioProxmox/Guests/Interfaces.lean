import AioProxmox.Client.Values
import AioProxmox.Collections.Table
import Mathlib.Data.List.Nodup

/-!
# Guests - the addresses of a guest

The addresses worth showing, by interface, and the one to show for the guest.  Parsing and
classifying an address is the business of a library: it is a parameter here, which has no
value where that raises.

Main results:

- Definitions {lit}`guestAddresses` and {lit}`primaryAddress`.
- Theorem {lit}`lookup_guestAddresses`: a name stands for the last interface that has it and
  shows an address.
- Theorem {lit}`primaryAddress_eq`: which addresses the primary one is the first of.
- Theorem {lit}`noneLost_iff`: when no shown address is lost.
-/

namespace AioProxmox

open Collections

/-! ## Addresses -/

/-- What {lit}`ipaddress.ip_address` makes of a text. -/
structure IpAddress where
  version : Nat
  isLoopback : Bool
  isLinkLocal : Bool
  isUnspecified : Bool

/-- {lit}`GuestAddress`. -/
structure GuestAddress where
  ipAddress : String

/-- {lit}`GuestInterface`. -/
structure GuestInterface where
  name : String
  ipAddresses : List GuestAddress := []
  inet : Option String := none
  inet6 : Option String := none

/-- {lit}`raw.split("/", 1)[0]` of a text that is there and not empty. -/
def withoutPrefixLength (raw : Option String) : List String :=
  match raw with
  | some text => if text = "" then [] else [Text.before '/' text]
  | none => []

/-- {lit}`GuestInterface.addresses`. -/
def GuestInterface.addresses (interface : GuestInterface) : List String :=
  interface.ipAddresses.map (·.ipAddress) ++ withoutPrefixLength interface.inet ++
    withoutPrefixLength interface.inet6

section Addresses

variable (ipAddress : String → Option IpAddress)

/-- {lit}`_shown`. -/
def isShown (address : String) : Bool :=
  match ipAddress address with
  | some parsed => !(parsed.isLoopback || parsed.isLinkLocal || parsed.isUnspecified)
  | none => false

/-- The addresses of an interface that are shown. -/
def GuestInterface.shown (interface : GuestInterface) : List String :=
  interface.addresses.filter (isShown ipAddress)

/-- {lit}`guest_addresses`. -/
def guestAddresses (interfaces : List GuestInterface) : List (String × List String) :=
  interfaces.foldl
    (fun result interface =>
      if interface.shown ipAddress = [] then result
      else store result interface.name (interface.shown ipAddress)) []

/-- {lit}`ipaddress.ip_address(address).version == 4`. -/
def isVersion4 (address : String) : Bool :=
  match ipAddress address with
  | some parsed => parsed.version = 4
  | none => false

/-- {lit}`primary_address`. -/
def primaryAddress (interfaces : List GuestInterface) : Option String :=
  let addresses := ((guestAddresses ipAddress interfaces).map Prod.snd).flatten
  match addresses with
  | [] => none
  | first :: _ => some ((addresses.find? (isVersion4 ipAddress)).getD first)

/-! ## What is kept -/

/-- The interfaces that show an address. -/
def showing (interfaces : List GuestInterface) : List GuestInterface :=
  interfaces.filter fun interface => interface.shown ipAddress ≠ []

/-- The addresses of the last interface of a name that shows any. -/
def lastShown (interfaces : List GuestInterface) (name : String) : List String :=
  ((((showing ipAddress interfaces).filter fun interface => interface.name = name).getLast?).map
    (GuestInterface.shown ipAddress)).getD []

/-- The first IPv4 of some addresses, else the first of them. -/
def firstAddress (addresses : List String) : Option String :=
  (addresses.find? (isVersion4 ipAddress)).or addresses.head?

variable {ipAddress} {interfaces : List GuestInterface} {interface : GuestInterface}
  {name address : String}

/-- The addresses are filled in interface by interface. -/
theorem guestAddresses_eq_fill (interfaces : List GuestInterface) :
    guestAddresses ipAddress interfaces =
      fill GuestInterface.name (GuestInterface.shown ipAddress) (showing ipAddress interfaces) := by
  unfold guestAddresses fill showing
  rw [List.foldl_filter]
  congr 1
  funext result interface
  by_cases hshown : interface.shown ipAddress = [] <;> simp [hshown]

/-- A name stands for the last interface that has it and shows an address. -/
theorem lookup_guestAddresses (interfaces : List GuestInterface) (name : String) :
    ((guestAddresses ipAddress interfaces).lookup name).getD [] =
      lastShown ipAddress interfaces name := by
  rw [guestAddresses_eq_fill, lookup_fill]
  rfl

/-- What stands first, of addresses listed in parts. -/
theorem firstAddress_flatMap {ι : Type} (part : ι → List String) (xs : List ι) :
    firstAddress ipAddress (xs.flatMap part) =
      (xs.findSome? fun x => (part x).find? (isVersion4 ipAddress)).or
        (xs.findSome? fun x => (part x).head?) := by
  unfold firstAddress
  rw [List.find?_flatMap, List.head?_flatMap]

/-- The primary address is the first one where each interface that shows any shows what the
last one of its name does. -/
theorem primaryAddress_eq (interfaces : List GuestInterface) :
    primaryAddress ipAddress interfaces =
      firstAddress ipAddress ((showing ipAddress interfaces).flatMap fun interface =>
        lastShown ipAddress interfaces interface.name) := by
  have hprimary : primaryAddress ipAddress interfaces =
      firstAddress ipAddress ((guestAddresses ipAddress interfaces).flatMap Prod.snd) := by
    unfold primaryAddress firstAddress
    rw [List.flatMap_def]
    cases ((guestAddresses ipAddress interfaces).map Prod.snd).flatten with
    | nil => rfl
    | cons first rest =>
        cases hfind : (first :: rest).find? (isVersion4 ipAddress) <;> simp [hfind]
  have hfound : ∀ g : List String → Option String, g [] = none →
      ((guestAddresses ipAddress interfaces).findSome? fun entry => g entry.2) =
        (showing ipAddress interfaces).findSome? fun interface =>
          g (lastShown ipAddress interfaces interface.name) := by
    intro g hnil
    have hvalues := findSome?_values_fill GuestInterface.name
      (GuestInterface.shown ipAddress) g (showing ipAddress interfaces)
    rw [List.findSome?_map, ← guestAddresses_eq_fill] at hvalues
    refine hvalues.trans ?_
    congr 1
    funext interface
    rw [← lookup_guestAddresses]
    cases (guestAddresses ipAddress interfaces).lookup interface.name with
    | none => exact hnil.symm
    | some shown => rfl
  rw [hprimary, firstAddress_flatMap, firstAddress_flatMap, hfound _ rfl, hfound _ rfl]

/-! ## Whether an address is lost -/

/-- Every shown address stands under the name of its interface and nothing else does; the
primary address is the first IPv4 among them, else the first of them. -/
structure NoneLost (ipAddress : String → Option IpAddress) (interfaces : List GuestInterface) :
    Prop where
  listed : ∀ name address,
    (∃ shown, (guestAddresses ipAddress interfaces).lookup name = some shown ∧ address ∈ shown) ↔
      ∃ interface ∈ interfaces, interface.name = name ∧ address ∈ interface.addresses ∧
        isShown ipAddress address = true
  primary : primaryAddress ipAddress interfaces =
    firstAddress ipAddress (interfaces.flatMap fun interface =>
      interface.addresses.filter (isShown ipAddress))

/-- Interfaces of one name do not hide one another: what one shows, the last one of its name
that shows any shows as well, and the first IPv4 of all, else the first address, stays the
first if each shows what that last one does. -/
structure RepeatsHarmless (ipAddress : String → Option IpAddress)
    (interfaces : List GuestInterface) : Prop where
  kept : ∀ interface ∈ interfaces, ∀ address ∈ interface.shown ipAddress,
    address ∈ lastShown ipAddress interfaces interface.name
  first : firstAddress ipAddress ((showing ipAddress interfaces).flatMap fun interface =>
      lastShown ipAddress interfaces interface.name) =
    firstAddress ipAddress ((showing ipAddress interfaces).flatMap
      (GuestInterface.shown ipAddress))

/-- What an interface shows are its addresses that may be shown. -/
theorem mem_shown : address ∈ interface.shown ipAddress ↔
    address ∈ interface.addresses ∧ isShown ipAddress address = true :=
  List.mem_filter

/-- What stands under a name is what the last interface of that name shows. -/
theorem mem_lookup_iff :
    (∃ shown, (guestAddresses ipAddress interfaces).lookup name = some shown ∧ address ∈ shown) ↔
      address ∈ lastShown ipAddress interfaces name := by
  rw [← lookup_guestAddresses]
  cases (guestAddresses ipAddress interfaces).lookup name with
  | none => simp
  | some shown => simp

/-- Which is the last of those that are listed. -/
theorem exists_of_mem_lastShown (h : address ∈ lastShown ipAddress interfaces name) :
    ∃ interface ∈ interfaces, interface.name = name ∧ address ∈ interface.shown ipAddress := by
  unfold lastShown at h
  cases hlast : ((showing ipAddress interfaces).filter fun interface =>
      interface.name = name).getLast? with
  | none => simp [hlast] at h
  | some interface =>
      rw [hlast] at h
      have hmem := List.mem_of_getLast? hlast
      rw [List.mem_filter, decide_eq_true_eq, showing, List.mem_filter] at hmem
      exact ⟨interface, hmem.1.1, hmem.2, h⟩

/-- Interfaces that show nothing change nothing. -/
theorem flatMap_showing (interfaces : List GuestInterface) :
    (showing ipAddress interfaces).flatMap (GuestInterface.shown ipAddress) =
      interfaces.flatMap (GuestInterface.shown ipAddress) := by
  induction interfaces with
  | nil => rfl
  | cons interface rest ih =>
      unfold showing at ih ⊢
      by_cases hshown : interface.shown ipAddress = []
      · rw [List.filter_cons_of_neg (by simp [hshown]), ih, List.flatMap_cons, hshown,
          List.nil_append]
      · rw [List.filter_cons_of_pos (by simp [hshown]), List.flatMap_cons, ih,
          List.flatMap_cons]

/-- No shown address is lost exactly if interfaces of one name do not hide one another. -/
theorem noneLost_iff (ipAddress : String → Option IpAddress) (interfaces : List GuestInterface) :
    NoneLost ipAddress interfaces ↔ RepeatsHarmless ipAddress interfaces := by
  have hall : firstAddress ipAddress ((showing ipAddress interfaces).flatMap
      (GuestInterface.shown ipAddress)) =
      firstAddress ipAddress (interfaces.flatMap fun interface =>
        interface.addresses.filter (isShown ipAddress)) := by
    rw [flatMap_showing]
    rfl
  constructor
  · intro h
    constructor
    · intro interface hinterface address haddress
      rw [mem_shown] at haddress
      rw [← mem_lookup_iff, h.listed]
      exact ⟨interface, hinterface, rfl, haddress⟩
    · rw [← primaryAddress_eq, h.primary, hall]
  · intro h
    constructor
    · intro name address
      rw [mem_lookup_iff]
      constructor
      · intro hlast
        rcases exists_of_mem_lastShown hlast with ⟨interface, hinterface, hname, hshown⟩
        exact ⟨interface, hinterface, hname, mem_shown.mp hshown⟩
      · rintro ⟨interface, hinterface, rfl, hshown⟩
        exact h.kept interface hinterface address (mem_shown.mpr hshown)
    · rw [primaryAddress_eq, h.first, hall]

end Addresses

/-- The addresses of the two interfaces below, and no others. -/
def twoAddresses (address : String) : Option IpAddress :=
  if address ∈ ["192.0.2.1", "192.0.2.2"] then
    some { version := 4, isLoopback := false, isLinkLocal := false, isUnspecified := false }
  else none

/-- Two interfaces of one name. -/
def sameName : List GuestInterface :=
  [{ name := "eth0", ipAddresses := [⟨"192.0.2.1"⟩] }, { name := "eth0", inet := "192.0.2.2/24" }]

/-- The address of the first one is lost. -/
theorem noneLost_counterexample : ¬ NoneLost twoAddresses sameName := by
  intro h
  have hprimary := h.primary
  revert hprimary
  decide

end AioProxmox
