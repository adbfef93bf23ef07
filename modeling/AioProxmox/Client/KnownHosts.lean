import AioProxmox.Collections.Distinct

/-!
# Client - the hosts a client may use

What the host list is for, in its own terms: a configured host, other hosts
learned from the cluster, and one of them in use.  No host is listed twice and
the host in use is listed, by construction.

Main results:

- Definitions {lit}`KnownHosts.learn`, {lit}`KnownHosts.renew` and
  {lit}`KnownHosts.moveTo`: all that can happen to the hosts of a client.
- Theorems {lit}`KnownHosts.learn_learn` and {lit}`KnownHosts.renew_renew`:
  hearing the same news again changes nothing.
-/

namespace AioProxmox

open Collections

/-- A configured host, the others known, and the one in use. -/
@[ext]
structure KnownHosts (α : Type*) where
  configured : α
  others : List α
  current : α
  distinct : (configured :: others).Nodup
  known : current ∈ configured :: others

namespace KnownHosts

variable {α : Type*}

/-- Every host known, the configured one first. -/
def all (k : KnownHosts α) : List α :=
  k.configured :: k.others

/-- No host is known twice. -/
theorem nodup_all (k : KnownHosts α) : k.all.Nodup :=
  k.distinct

/-- The host in use is known. -/
theorem current_mem_all (k : KnownHosts α) : k.current ∈ k.all :=
  k.known

/-- Only the configured host is known. -/
def single (host : α) : KnownHosts α where
  configured := host
  others := []
  current := host
  distinct := List.nodup_singleton host
  known := List.mem_singleton_self host

/-- Use another known host. -/
def moveTo (k : KnownHosts α) (host : α) (hhost : host ∈ k.all) : KnownHosts α :=
  { k with current := host, known := hhost }

/-- Moving changes nothing of what is known. -/
@[simp]
theorem all_moveTo (k : KnownHosts α) (host : α) (hhost : host ∈ k.all) :
    (k.moveTo host hhost).all = k.all :=
  rfl

variable [DecidableEq α]

/-- Hosts are added to those known. -/
def learn (k : KnownHosts α) (names : List α) : KnownHosts α where
  configured := k.configured
  others := k.others ++ (names.filter (· ∉ k.all)).eraseDups
  current := k.current
  distinct := nodup_appendNew k.distinct names
  known := (prefix_appendNew k.all names).subset k.known

/-- Learning adds the new names at the end. -/
@[simp]
theorem all_learn (k : KnownHosts α) (names : List α) :
    (k.learn names).all = appendNew k.all names :=
  rfl

/-- The list that replaces the known hosts: the configured host, those named,
and the host in use where it is not among them. -/
def renewed (k : KnownHosts α) (names : List α) : List α :=
  appendNew (appendNew [k.configured] names) [k.current]

/-- The new list starts with the configured host. -/
theorem renewed_eq_cons (k : KnownHosts α) (names : List α) :
    k.renewed names = k.configured :: (k.renewed names).tail := by
  simp [renewed, appendNew]

/-- The hosts known are replaced by those named, the configured one and the one
in use apart. -/
def renew (k : KnownHosts α) (names : List α) : KnownHosts α where
  configured := k.configured
  others := (k.renewed names).tail
  current := k.current
  distinct := by
    rw [← renewed_eq_cons]
    exact nodup_appendNew (nodup_appendNew (List.nodup_singleton _) names) _
  known := by
    rw [← renewed_eq_cons]
    simp [renewed]

/-- Renewing keeps the configured host and the one in use beside the names. -/
@[simp]
theorem all_renew (k : KnownHosts α) (names : List α) :
    (k.renew names).all = k.renewed names :=
  (renewed_eq_cons k names).symm

/-- The replacing list, written out. -/
theorem renewed_eq (k : KnownHosts α) (names : List α) :
    k.renewed names =
      k.configured :: (names.filter (· ≠ k.configured)).eraseDups ++
        if k.current ∈ k.configured :: names then [] else [k.current] := by
  have hfilter : names.filter (· ∉ [k.configured]) = names.filter (· ≠ k.configured) := by
    congr 1
    funext a
    simp
  have hfirst : appendNew [k.configured] names =
      k.configured :: (names.filter (· ≠ k.configured)).eraseDups := by
    rw [appendNew, hfilter]
    rfl
  have hmem : k.current ∈ appendNew [k.configured] names ↔
      k.current ∈ k.configured :: names := by
    simp
  rw [renewed, appendNew_cons, appendNew_nil, appendNew_nil]
  by_cases h : k.current ∈ k.configured :: names
  · rw [if_pos (hmem.mpr h), if_pos h, hfirst, List.append_nil]
  · rw [if_neg (mt hmem.mp h), if_neg h, hfirst]

/-- Adding the same hosts again changes nothing. -/
theorem learn_learn (k : KnownHosts α) (names : List α) :
    (k.learn names).learn names = k.learn names := by
  have hnone : names.filter (· ∉ (k.learn names).all) = [] := by
    rw [List.filter_eq_nil_iff]
    intro a ha
    simp [ha]
  ext1
  · rfl
  · change (k.learn names).others ++ _ = _
    rw [hnone, List.eraseDups_nil, List.append_nil]
  · rfl

/-- Replacing by the same hosts again changes nothing. -/
theorem renew_renew (k : KnownHosts α) (names : List α) :
    (k.renew names).renew names = k.renew names := by
  ext1 <;> rfl

end KnownHosts

end AioProxmox
