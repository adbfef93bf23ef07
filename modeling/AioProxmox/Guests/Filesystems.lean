import AioProxmox.Cluster.Resources
import AioProxmox.Collections.Maxima
import Mathlib.Algebra.GroupWithZero.Nat
import Mathlib.Algebra.Order.BigOperators.Group.Finset
import Mathlib.Order.Lattice.Nat

/-!
# Guests - disk usage

{lit}`guest_disk_usage` keeps for each device the largest used figure and the largest total
one, in two tables filled side by side, and gives a total where the two have the same
devices.  The figures, being sizes, are not negative.

Main results:

- Definition {lit}`guestDiskUsage`: the two figures.
- Theorem {lit}`guestDiskUsage_eq`: what they are sums of, and when a total is given.
- Theorem {lit}`describesOneSet_iff`: when both describe the same filesystems.
-/

namespace AioProxmox

open Collections

/-! ## The two figures -/

/-- {lit}`GuestFilesystem`, as far as its usage is concerned. -/
structure GuestFilesystem where
  name : String
  usedBytes : Option Nat := none
  totalBytes : Option Nat := none
  disk : List Json := []

/-- The device tables of the loop. -/
structure DeviceTables where
  usedByDevice : List (String × Nat) := []
  totalByDevice : List (String × Nat) := []

section Usage

variable (text : Json → String)

/-- {lit}`GuestFilesystem.device`, where {lit}`text` is {lit}`str`. -/
def GuestFilesystem.device (filesystem : GuestFilesystem) : String :=
  match filesystem.disk with
  | .obj fields :: _ =>
      match fields.lookup "dev" with
      | some dev => if dev.truthy then text dev else filesystem.name
      | none => filesystem.name
  | _ => filesystem.name

/-- One turn of the loop of {lit}`guest_disk_usage`. -/
def DeviceTables.add (tables : DeviceTables) (filesystem : GuestFilesystem) : DeviceTables :=
  match filesystem.disk, filesystem.usedBytes with
  | _ :: _, some used =>
      let device := filesystem.device text
      { usedByDevice := store tables.usedByDevice device
          (max ((tables.usedByDevice.lookup device).getD 0) used)
        totalByDevice :=
          match filesystem.totalBytes with
          | some total => store tables.totalByDevice device
              (max ((tables.totalByDevice.lookup device).getD 0) total)
          | none => tables.totalByDevice }
  | _, _ => tables

/-- {lit}`guest_disk_usage`: the used figure and the total one. -/
def guestDiskUsage (filesystems : List GuestFilesystem) : Option Nat × Option Nat :=
  let tables := filesystems.foldl (DeviceTables.add text) {}
  if tables.usedByDevice = [] then (none, none)
  else
    (some (tables.usedByDevice.map Prod.snd).sum,
      if (tables.totalByDevice.map Prod.fst).toFinset =
          (tables.usedByDevice.map Prod.fst).toFinset then
        some (tables.totalByDevice.map Prod.snd).sum
      else none)

/-! ## What they are the figures of -/

/-- A filesystem with a disk entry and a used figure. -/
def GuestFilesystem.counts (filesystem : GuestFilesystem) : Bool :=
  !filesystem.disk.isEmpty && filesystem.usedBytes.isSome

/-- The filesystems that count. -/
def countedFilesystems (filesystems : List GuestFilesystem) : List GuestFilesystem :=
  filesystems.filter GuestFilesystem.counts

/-- The distinct devices of some filesystems. -/
def devices (filesystems : List GuestFilesystem) : Finset String :=
  keysOf (GuestFilesystem.device text) filesystems

/-- The largest figure of the filesystems on a device. -/
def largestOn (figure : GuestFilesystem → Option Nat) (filesystems : List GuestFilesystem)
    (device : String) : Nat :=
  (figuresOn (GuestFilesystem.device text) figure filesystems device).sup id

/-- The sum over the devices of the largest figure on each. -/
def sumOfLargest (figure : GuestFilesystem → Option Nat) (filesystems : List GuestFilesystem) :
    Nat :=
  ∑ device ∈ devices text filesystems, largestOn text figure filesystems device

/-- Some filesystem on the device has reported a total. -/
def HasTotal (filesystems : List GuestFilesystem) (device : String) : Prop :=
  ∃ filesystem ∈ filesystems, filesystem.device text = device ∧
    filesystem.totalBytes.isSome = true

variable {text} {filesystems other : List GuestFilesystem} {filesystem : GuestFilesystem}
  {tables : DeviceTables}

/-- A filesystem that counts is noted in both tables. -/
theorem DeviceTables.add_of_counts (h : filesystem.counts = true) :
    tables.add text filesystem =
      { usedByDevice := note (GuestFilesystem.device text) GuestFilesystem.usedBytes
          tables.usedByDevice filesystem
        totalByDevice := note (GuestFilesystem.device text) GuestFilesystem.totalBytes
          tables.totalByDevice filesystem } := by
  rw [GuestFilesystem.counts, Bool.and_eq_true, Option.isSome_iff_exists] at h
  rcases h with ⟨hdisk, used, hused⟩
  unfold DeviceTables.add note
  cases hentries : filesystem.disk with
  | nil => simp [hentries] at hdisk
  | cons entry rest =>
      rw [hused]
      cases filesystem.totalBytes <;> rfl

/-- A filesystem that does not count leaves the tables as they are. -/
theorem DeviceTables.add_of_not (h : filesystem.counts = false) :
    tables.add text filesystem = tables := by
  unfold DeviceTables.add
  split
  · rename_i hdisk hused
    simp [GuestFilesystem.counts, hdisk, hused] at h
  · rfl

/-- The last filesystem is counted last. -/
theorem countedFilesystems_concat (filesystems : List GuestFilesystem)
    (filesystem : GuestFilesystem) :
    countedFilesystems (filesystems ++ [filesystem]) =
      if filesystem.counts = true then countedFilesystems filesystems ++ [filesystem]
      else countedFilesystems filesystems := by
  unfold countedFilesystems
  rw [List.filter_append]
  by_cases hcounts : filesystem.counts = true
  · simp [hcounts]
  · simp [hcounts]

/-- The loop fills the tables with the largest figures of the filesystems that count. -/
theorem foldl_add (filesystems : List GuestFilesystem) :
    filesystems.foldl (DeviceTables.add text) {} =
      { usedByDevice := maxima (GuestFilesystem.device text) GuestFilesystem.usedBytes
          (countedFilesystems filesystems)
        totalByDevice := maxima (GuestFilesystem.device text) GuestFilesystem.totalBytes
          (countedFilesystems filesystems) } := by
  induction filesystems using List.reverseRecOn with
  | nil => rfl
  | append_singleton filesystems filesystem ih =>
      rw [List.foldl_append, List.foldl_cons, List.foldl_nil, ih, countedFilesystems_concat]
      cases hcounts : filesystem.counts with
      | true =>
          rw [DeviceTables.add_of_counts hcounts, if_pos rfl]
          simp only [maxima, List.foldl_append, List.foldl_cons, List.foldl_nil]
      | false =>
          rw [DeviceTables.add_of_not hcounts, if_neg Bool.false_ne_true]

/-- Every filesystem that counts has a used figure. -/
theorem usedBytes_isSome (h : filesystem ∈ countedFilesystems filesystems) :
    filesystem.usedBytes.isSome = true := by
  have hcounts := (List.mem_filter.mp h).2
  rw [GuestFilesystem.counts, Bool.and_eq_true] at hcounts
  exact hcounts.2

/-- The devices with a used figure are those of all filesystems that count. -/
theorem usedDevices_eq {table : List (String × Nat)}
    (h : IsMaxima (GuestFilesystem.device text) GuestFilesystem.usedBytes table
      (countedFilesystems filesystems)) :
    (table.map Prod.fst).toFinset = devices text (countedFilesystems filesystems) := by
  ext device
  rw [List.mem_toFinset, h.mem_keys, devices, mem_keysOf]
  constructor
  · rintro ⟨f, hf, hdevice, -⟩
    exact ⟨f, hf, hdevice⟩
  · rintro ⟨f, hf, hdevice⟩
    exact ⟨f, hf, hdevice, usedBytes_isSome hf⟩

/-- The devices with a total are all of them exactly if each has one. -/
theorem totalDevices_eq_iff {table : List (String × Nat)}
    (h : IsMaxima (GuestFilesystem.device text) GuestFilesystem.totalBytes table filesystems) :
    (table.map Prod.fst).toFinset = devices text filesystems ↔
      ∀ device ∈ devices text filesystems, HasTotal text filesystems device := by
  constructor
  · intro heq device hdevice
    rw [← heq, List.mem_toFinset, h.mem_keys] at hdevice
    exact hdevice
  · intro hall
    ext device
    rw [List.mem_toFinset, h.mem_keys]
    constructor
    · rintro ⟨f, hf, hdevice, -⟩
      exact mem_keysOf.mpr ⟨f, hf, hdevice⟩
    · exact hall device

instance (filesystems : List GuestFilesystem) (device : String) :
    Decidable (HasTotal text filesystems device) :=
  inferInstanceAs (Decidable (∃ filesystem ∈ filesystems, _))

/-- The used figure is the sum of the largest ones over the devices, and the total, given
where each device has one, likewise. -/
theorem guestDiskUsage_eq (text : Json → String) (filesystems : List GuestFilesystem) :
    guestDiskUsage text filesystems =
      if countedFilesystems filesystems = [] then (none, none)
      else
        (some (sumOfLargest text GuestFilesystem.usedBytes (countedFilesystems filesystems)),
          if ∀ device ∈ devices text (countedFilesystems filesystems),
              HasTotal text (countedFilesystems filesystems) device then
            some (sumOfLargest text GuestFilesystem.totalBytes (countedFilesystems filesystems))
          else none) := by
  have hused := maxima_isMaxima (GuestFilesystem.device text) GuestFilesystem.usedBytes
    (countedFilesystems filesystems)
  have htotal := maxima_isMaxima (GuestFilesystem.device text) GuestFilesystem.totalBytes
    (countedFilesystems filesystems)
  have hnil : maxima (GuestFilesystem.device text) GuestFilesystem.usedBytes
      (countedFilesystems filesystems) = [] ↔ countedFilesystems filesystems = [] := by
    rw [← List.map_eq_nil_iff (f := Prod.fst), ← List.toFinset_eq_empty_iff,
      usedDevices_eq hused, devices, keysOf, List.toFinset_eq_empty_iff, List.map_eq_nil_iff]
  unfold guestDiskUsage
  rw [foldl_add]
  simp only [hnil, usedDevices_eq hused, totalDevices_eq_iff htotal]
  rw [hused.sum_values, usedDevices_eq hused]
  by_cases hall : ∀ device ∈ devices text (countedFilesystems filesystems),
      HasTotal text (countedFilesystems filesystems) device
  · rw [htotal.sum_values, (totalDevices_eq_iff htotal).mpr hall]
    rfl
  · simp only [hall, if_false]
    rfl

/-! ## One set of filesystems -/

/-- The two figures describe one set of filesystems: those that count. -/
structure DescribesOneSet (text : Json → String) (filesystems : List GuestFilesystem)
    (result : Option Nat × Option Nat) : Prop where
  nothing : result = (none, none) ↔ countedFilesystems filesystems = []
  used : countedFilesystems filesystems ≠ [] → result.1 =
    some (sumOfLargest text GuestFilesystem.usedBytes (countedFilesystems filesystems))
  /-- A total is given exactly if each of them has reported one. -/
  given : countedFilesystems filesystems ≠ [] → (result.2.isSome = true ↔
    ∀ filesystem ∈ countedFilesystems filesystems, filesystem.totalBytes.isSome = true)
  total : ∀ total, result.2 = some total →
    total = sumOfLargest text GuestFilesystem.totalBytes (countedFilesystems filesystems)
  /-- No more is used than there is, if no filesystem reports that. -/
  consistent : (∀ filesystem ∈ filesystems, ∀ used total, filesystem.usedBytes = some used →
      filesystem.totalBytes = some total → used ≤ total) →
    ∀ used total, result = (some used, some total) → used ≤ total
  order : ∀ other, filesystems.Perm other → guestDiskUsage text other = result

/-- Where every device has a total, so has every filesystem. -/
def TotalsComplete (text : Json → String) (filesystems : List GuestFilesystem) : Prop :=
  (∀ device ∈ devices text filesystems, HasTotal text filesystems device) →
    ∀ filesystem ∈ filesystems, filesystem.totalBytes.isSome = true

/-- Which filesystems count does not depend on the order. -/
theorem countedFilesystems_perm (h : filesystems.Perm other) :
    (countedFilesystems filesystems).Perm (countedFilesystems other) :=
  h.filter _

/-- The sum over the devices does not depend on the order. -/
theorem sumOfLargest_perm (figure : GuestFilesystem → Option Nat) (h : filesystems.Perm other) :
    sumOfLargest text figure filesystems = sumOfLargest text figure other := by
  have hdevices : devices text filesystems = devices text other := keysOf_perm h
  unfold sumOfLargest
  rw [hdevices]
  apply Finset.sum_congr rfl
  intro device _
  unfold largestOn
  rw [figuresOn_perm h]

/-- Which device has a total does not depend on the order. -/
theorem hasTotal_perm (h : filesystems.Perm other) (device : String) :
    HasTotal text filesystems device ↔ HasTotal text other device := by
  unfold HasTotal
  simp only [h.mem_iff]

/-- The order of the list does not matter. -/
theorem guestDiskUsage_perm (text : Json → String) (h : filesystems.Perm other) :
    guestDiskUsage text filesystems = guestDiskUsage text other := by
  have hcounted := countedFilesystems_perm h
  have hdevices : devices text (countedFilesystems filesystems) =
      devices text (countedFilesystems other) := keysOf_perm hcounted
  have hnil : countedFilesystems filesystems = [] ↔ countedFilesystems other = [] := by
    rw [← List.length_eq_zero_iff, hcounted.length_eq, List.length_eq_zero_iff]
  rw [guestDiskUsage_eq, guestDiskUsage_eq]
  simp only [hnil, hdevices, hasTotal_perm hcounted,
    sumOfLargest_perm GuestFilesystem.usedBytes hcounted,
    sumOfLargest_perm GuestFilesystem.totalBytes hcounted]

/-- Where every filesystem has a total that is no less than what is used of it, so have all
together. -/
theorem sumOfLargest_le
    (htotal : ∀ filesystem ∈ filesystems, filesystem.totalBytes.isSome = true)
    (hle : ∀ filesystem ∈ filesystems, ∀ used total, filesystem.usedBytes = some used →
      filesystem.totalBytes = some total → used ≤ total) :
    sumOfLargest text GuestFilesystem.usedBytes filesystems ≤
      sumOfLargest text GuestFilesystem.totalBytes filesystems := by
  apply Finset.sum_le_sum
  intro device _
  apply Finset.sup_le
  intro used hused
  rcases mem_figuresOn.mp hused with ⟨f, hf, hdevice, hfigure⟩
  rcases Option.isSome_iff_exists.mp (htotal f hf) with ⟨total, hfound⟩
  have hmem : total ∈ figuresOn (GuestFilesystem.device text) GuestFilesystem.totalBytes
      filesystems device := mem_figuresOn.mpr ⟨f, hf, hdevice, hfound⟩
  exact (hle f hf used total hfigure hfound).trans (Finset.le_sup (f := id) hmem)

/-- If every filesystem has a total, so has every device. -/
theorem hasTotal_of_all
    (h : ∀ filesystem ∈ filesystems, filesystem.totalBytes.isSome = true) :
    ∀ device ∈ devices text filesystems, HasTotal text filesystems device := by
  intro device hdevice
  rcases mem_keysOf.mp hdevice with ⟨f, hf, hkey⟩
  exact ⟨f, hf, hkey, h f hf⟩

/-- Where no filesystem counts there is no figure. -/
theorem describesOneSet_of_nil (h : countedFilesystems filesystems = []) :
    DescribesOneSet text filesystems (guestDiskUsage text filesystems) := by
  have hresult : guestDiskUsage text filesystems = (none, none) := by
    rw [guestDiskUsage_eq, if_pos h]
  rw [hresult]
  constructor
  · exact iff_of_true rfl h
  · exact absurd h
  · exact absurd h
  · simp
  · simp
  · intro other hperm
    rw [← guestDiskUsage_perm text hperm, hresult]

section Counted

variable (hcounted : countedFilesystems filesystems ≠ [])
include hcounted

/-- The used figure is always given. -/
theorem guestDiskUsage_fst (text : Json → String) : (guestDiskUsage text filesystems).1 =
    some (sumOfLargest text GuestFilesystem.usedBytes (countedFilesystems filesystems)) := by
  rw [guestDiskUsage_eq, if_neg hcounted]

/-- A total is given exactly if every device has one. -/
theorem guestDiskUsage_snd_isSome_iff : (guestDiskUsage text filesystems).2.isSome = true ↔
    ∀ device ∈ devices text (countedFilesystems filesystems),
      HasTotal text (countedFilesystems filesystems) device := by
  rw [guestDiskUsage_eq, if_neg hcounted]
  constructor
  · intro hsome
    by_contra hlacking
    rw [if_neg hlacking] at hsome
    contradiction
  · intro hdevices
    rw [if_pos hdevices]
    rfl

/-- A total that is told is the sum of the largest ones. -/
theorem guestDiskUsage_snd_eq {total : Nat}
    (h : (guestDiskUsage text filesystems).2 = some total) :
    total = sumOfLargest text GuestFilesystem.totalBytes (countedFilesystems filesystems) := by
  rw [guestDiskUsage_eq, if_neg hcounted] at h
  split at h
  · exact (Option.some.inj h).symm
  · contradiction

/-- Where all of them report a total if every device has one, the figures are theirs. -/
theorem describesOneSet_of_complete
    (hcomplete : TotalsComplete text (countedFilesystems filesystems)) :
    DescribesOneSet text filesystems (guestDiskUsage text filesystems) := by
  have hgiven : (guestDiskUsage text filesystems).2.isSome = true ↔
      ∀ f ∈ countedFilesystems filesystems, f.totalBytes.isSome = true := by
    rw [guestDiskUsage_snd_isSome_iff hcounted]
    exact ⟨hcomplete, hasTotal_of_all⟩
  constructor
  · apply iff_of_false _ hcounted
    intro hnone
    have hused := guestDiskUsage_fst hcounted text
    rw [hnone] at hused
    contradiction
  · exact fun _ => guestDiskUsage_fst hcounted text
  · exact fun _ => hgiven
  · exact fun total => guestDiskUsage_snd_eq hcounted
  · intro hle used total hfigures
    have hused := guestDiskUsage_fst hcounted text
    have htotal : (guestDiskUsage text filesystems).2 = some total := by
      rw [hfigures]
    have hsome : (guestDiskUsage text filesystems).2.isSome = true := by
      rw [htotal]
      rfl
    rw [hfigures] at hused
    rw [Option.some.inj hused, guestDiskUsage_snd_eq hcounted htotal]
    apply sumOfLargest_le (hgiven.mp hsome)
    intro f hf
    exact hle f (List.mem_of_mem_filter hf)
  · intro other hperm
    exact (guestDiskUsage_perm text hperm).symm

end Counted

/-- The two figures describe one set of filesystems exactly if, once every device has a
total, every filesystem that counts has one. -/
theorem describesOneSet_iff (text : Json → String) (filesystems : List GuestFilesystem) :
    DescribesOneSet text filesystems (guestDiskUsage text filesystems) ↔
      TotalsComplete text (countedFilesystems filesystems) := by
  by_cases hcounted : countedFilesystems filesystems = []
  · apply iff_of_true (describesOneSet_of_nil hcounted)
    rw [hcounted]
    exact fun _ filesystem hnone => absurd hnone List.not_mem_nil
  · constructor
    · intro h hdevices
      apply (h.given hcounted).mp
      rw [guestDiskUsage_snd_isSome_iff hcounted]
      exact hdevices
    · exact describesOneSet_of_complete hcounted

end Usage

/-- A device mounted twice, of which one mount reports no total and less is there than is
used on the other. -/
def mountedTwice : List GuestFilesystem :=
  [{ name := "sda1", usedBytes := some 10, disk := [.obj [("dev", .str "/dev/sda1")]] },
    { name := "sda1", usedBytes := some 5, totalBytes := some 8
      disk := [.obj [("dev", .str "/dev/sda1")]] }]

/-- The total given for it is below the used figure. -/
theorem describesOneSet_counterexample :
    ¬ DescribesOneSet textOf mountedTwice (guestDiskUsage textOf mountedTwice) := by
  intro h
  have hle := h.consistent (by
    intro f hf used total hused htotal
    simp only [mountedTwice, List.mem_cons, List.not_mem_nil, or_false] at hf
    rcases hf with rfl | rfl
    · contradiction
    · cases hused
      cases htotal
      decide) 10 8 (by decide)
  omega

end AioProxmox
