import Mathlib.Data.List.Basic

/-!
# Web - the authority of a URL

Reading a URL the way RFC 3986 defines it, as far as its authority goes: it stands
between the two slashes and the path, query or fragment; user information ends at an
at sign; an IP literal stands in brackets, and any other host ends at the first colon,
after which comes the port.

Main results:

- Definition {lit}`endpoint`: the host and port that a URL names.
- Theorem {lit}`readAuthority_name`: a host without delimiters is read back.
- Theorem {lit}`readAuthority_ipLiteral`: so is an IP literal in brackets.
- Theorem {lit}`readAuthority_not_ipLiteral`: without a bracket no IP literal is read.
-/

namespace Web

/-- A host: an IP literal, of which the brackets are no part, or a name or IPv4
address. -/
inductive Host where
  | ipLiteral (text : String)
  | name (text : String)
deriving DecidableEq

/-- Where a URL leads. -/
structure Endpoint where
  host : Host
  port : String
deriving DecidableEq

/-- The characters that delimit the parts of a URL. -/
def genDelims : List Char :=
  [':', '/', '?', '#', '[', ']', '@']

/-- What ends an authority. -/
def endsAuthority (c : Char) : Bool :=
  c = '/' || c = '?' || c = '#'

/-- What stands between the two slashes and the path, query or fragment. -/
def authority : List Char → Option (List Char)
  | ':' :: '/' :: '/' :: rest => some (rest.takeWhile fun c => !endsAuthority c)
  | _ :: rest => authority rest
  | [] => none

/-- What follows the user information, if there is any. -/
def withoutUserinfo (text : List Char) : List Char :=
  if '@' ∈ text then (text.dropWhile (· ≠ '@')).tail else text

/-- The host at the front, and what follows it. -/
def readHost : List Char → Option (Host × List Char)
  | '[' :: rest =>
      if ']' ∈ rest then
        some (.ipLiteral (String.ofList (rest.takeWhile (· ≠ ']'))),
          (rest.dropWhile (· ≠ ']')).tail)
      else none
  | text => some (.name (String.ofList (text.takeWhile (· ≠ ':'))), text.dropWhile (· ≠ ':'))

/-- The port after the host; it may be missing. -/
def readPort : List Char → Option String
  | [] => some ""
  | ':' :: digits => some (String.ofList digits)
  | _ => none

/-- The host and port an authority names. -/
def readAuthority (text : List Char) : Option Endpoint := do
  let (host, rest) ← readHost (withoutUserinfo text)
  let port ← readPort rest
  return ⟨host, port⟩

/-- The host and port a URL names. -/
def endpoint (url : String) : Option Endpoint :=
  (authority url.toList).bind readAuthority

section Read

variable {scheme text digits path : List Char}

/-- The authority of a URL is what stands in its place. -/
theorem authority_eq (hscheme : ':' ∉ scheme) (htext : ∀ c ∈ text, endsAuthority c = false) :
    authority (scheme ++ ':' :: '/' :: '/' :: text ++ '/' :: path) = some text := by
  induction scheme with
  | nil =>
      have htake : (text ++ '/' :: path).takeWhile (fun c => !endsAuthority c) = text := by
        rw [List.takeWhile_append_of_pos fun c hc => by simp [htext c hc]]
        simp [endsAuthority]
      simp only [List.nil_append, List.cons_append, authority, htake]
  | cons c rest ih =>
      have hc : c ≠ ':' := fun heq => hscheme (heq ▸ List.mem_cons_self)
      have hrest : ':' ∉ rest := fun hmem => hscheme (List.mem_cons_of_mem c hmem)
      rw [List.cons_append, List.cons_append, authority]
      · exact ih hrest
      · intro rest' heq
        exact absurd heq hc

/-- Without the sign there is no user information. -/
theorem withoutUserinfo_eq (h : '@' ∉ text) : withoutUserinfo text = text :=
  if_neg h

/-- Without a bracket at the front the host ends at the first colon. -/
theorem readHost_name (h : text.head? ≠ some '[') :
    readHost text =
      some (.name (String.ofList (text.takeWhile (· ≠ ':'))), text.dropWhile (· ≠ ':')) := by
  cases text with
  | nil => rfl
  | cons c rest =>
      rw [readHost]
      intro rest' heq
      cases heq
      exact h rfl

/-- A host without delimiters is read back. -/
theorem readAuthority_name (htext : ∀ c ∈ text, c ∉ genDelims)
    (hdigits : ∀ c ∈ digits, c ∉ genDelims) :
    readAuthority (text ++ ':' :: digits) =
      some ⟨.name (String.ofList text), String.ofList digits⟩ := by
  have hat : '@' ∉ text ++ ':' :: digits := by
    simp only [List.mem_append, List.mem_cons]
    rintro (hmem | heq | hmem)
    · exact htext _ hmem (by decide)
    · contradiction
    · exact hdigits _ hmem (by decide)
  have hcolon : ∀ c ∈ text, decide (c ≠ ':') = true := by
    intro c hc
    rw [decide_eq_true_eq]
    rintro rfl
    exact htext _ hc (by decide)
  have htake : (text ++ ':' :: digits).takeWhile (· ≠ ':') = text := by
    rw [List.takeWhile_append_of_pos hcolon]
    simp
  have hdrop : (text ++ ':' :: digits).dropWhile (· ≠ ':') = ':' :: digits := by
    rw [List.dropWhile_append_of_pos hcolon]
    simp
  have hfront : (text ++ ':' :: digits).head? ≠ some '[' := by
    cases text with
    | nil => simp
    | cons c rest =>
        rw [List.cons_append, List.head?_cons, ne_eq, Option.some.injEq]
        rintro rfl
        exact htext _ List.mem_cons_self (by decide)
  unfold readAuthority
  rw [withoutUserinfo_eq hat, readHost_name hfront, htake, hdrop]
  rfl

/-- So is an IP literal in brackets. -/
theorem readAuthority_ipLiteral (htext : ∀ c ∈ text, c ≠ ']' ∧ c ≠ '@')
    (hdigits : ∀ c ∈ digits, c ∉ genDelims) :
    readAuthority ('[' :: text ++ ']' :: ':' :: digits) =
      some ⟨.ipLiteral (String.ofList text), String.ofList digits⟩ := by
  have hat : '@' ∉ '[' :: text ++ ']' :: ':' :: digits := by
    simp only [List.mem_append, List.mem_cons]
    rintro ((heq | hmem) | heq | heq | hmem)
    · contradiction
    · exact (htext _ hmem).2 rfl
    · contradiction
    · contradiction
    · exact hdigits _ hmem (by decide)
  have hclosed : ∀ c ∈ text, decide (c ≠ ']') = true := by
    intro c hc
    rw [decide_eq_true_eq]
    exact (htext c hc).1
  have htake : (text ++ ']' :: ':' :: digits).takeWhile (· ≠ ']') = text := by
    rw [List.takeWhile_append_of_pos hclosed]
    simp
  have hdrop : (text ++ ']' :: ':' :: digits).dropWhile (· ≠ ']') = ']' :: ':' :: digits := by
    rw [List.dropWhile_append_of_pos hclosed]
    simp
  unfold readAuthority
  rw [withoutUserinfo_eq hat, List.cons_append, readHost, if_pos (by simp), htake, hdrop]
  rfl

/-- Without a bracket at the front no IP literal is read. -/
theorem readAuthority_not_ipLiteral (hat : '@' ∉ text) (hfront : text.head? ≠ some '[')
    (literal port : String) : readAuthority text ≠ some ⟨.ipLiteral literal, port⟩ := by
  unfold readAuthority
  rw [withoutUserinfo_eq hat, readHost_name hfront]
  intro heq
  cases hport : readPort (text.dropWhile (· ≠ ':')) with
  | none =>
      simp only [Option.bind_eq_bind, Option.bind_some, hport, Option.bind_none] at heq
      contradiction
  | some port' =>
      simp only [Option.bind_eq_bind, Option.bind_some, hport] at heq
      cases heq

end Read

end Web
