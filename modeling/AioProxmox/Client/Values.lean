import Mathlib.Data.Rat.Defs
import Mathlib.Data.List.DropRight
import Mathlib.Data.List.Infix

/-!
# Client - Python values and exceptions

The values that travel between the client and the API, and the exceptions that
the client's clauses tell apart.  A JSON object is an association list in
insertion order; a {lit}`float` is its exact rational value.

Main results:

- Definitions {lit}`Json.getItem`, {lit}`Json.dictGet` and {lit}`Json.truthy`:
  subscription, {lit}`dict.get` and truth value, each with the exception it
  raises on a value of another type.
- Theorem {lit}`Exc.isLostHost_handled`: the part of aiohttp's class hierarchy that
  the client's clauses rest on.
-/

namespace AioProxmox

/-! ## Exceptions -/

/-- The exceptions the client raises or meets.

aiohttp's {lit}`ServerTimeoutError`, which is both a connection error and a
timeout, counts as {lit}`clientConnectionError`: each clause that names one of
the two names the other as well.  {lit}`clientError` is any other
{lit}`aiohttp.ClientError`, such as {lit}`ContentTypeError`; {lit}`other` is any
exception not listed. -/
inductive Exc where
  | proxmoxError (text : String)
  | proxmoxAuthError (text : String)
  | proxmoxAPIError (status : Nat) (message : String) (endpoint : String)
  | resourceNotFoundError (text : String)
  | clientConnectionError (text : String)
  | clientError (text : String)
  | timeoutError (text : String)
  | valueError (text : String)
  | keyError (key : String)
  | typeError (text : String)
  | attributeError (text : String)
  | indexError (text : String)
  | cancelledError
  | other (name : String)
deriving DecidableEq

namespace Exc

/-- {lit}`isinstance(err, ProxmoxError)`. -/
def isProxmoxError : Exc → Bool
  | proxmoxError _ | proxmoxAuthError _ | proxmoxAPIError .. | resourceNotFoundError _ => true
  | _ => false

/-- {lit}`isinstance(err, ProxmoxAPIError)`. -/
def isProxmoxAPIError : Exc → Bool
  | proxmoxAPIError .. => true
  | _ => false

/-- {lit}`isinstance(err, aiohttp.ClientError)`. -/
def isClientError : Exc → Bool
  | clientConnectionError _ | clientError _ => true
  | _ => false

/-- {lit}`isinstance(err, aiohttp.ClientConnectionError)`. -/
def isClientConnectionError : Exc → Bool
  | clientConnectionError _ => true
  | _ => false

/-- {lit}`isinstance(err, TimeoutError)`. -/
def isTimeoutError : Exc → Bool
  | timeoutError _ => true
  | _ => false

/-- The clause {lit}`except aiohttp.ClientConnectionError, TimeoutError` of
{lit}`request`: nobody answered. -/
def isLostHost (err : Exc) : Bool :=
  err.isClientConnectionError || err.isTimeoutError

/-- Raised by looking something up in a value of Python's own: a missing key, an
index out of range, a value of another type. -/
def isLookup : Exc → Bool
  | keyError _ | typeError _ | attributeError _ | indexError _ => true
  | _ => false

/-- A lookup error is no error of the library. -/
theorem isLookup_isProxmoxError {err : Exc} (h : err.isLookup = true) :
    err.isProxmoxError = false := by
  cases err <;> simp_all [isLookup, isProxmoxError]

/-- A lookup error loses no host. -/
theorem isLookup_isLostHost {err : Exc} (h : err.isLookup = true) : err.isLostHost = false := by
  cases err <;> simp_all [isLookup, isLostHost, isClientConnectionError, isTimeoutError]

/-- What {lit}`request` takes for a lost host, {lit}`_answers` takes for silence. -/
theorem isLostHost_handled {err : Exc} (h : err.isLostHost = true) :
    (err.isClientError || err.isTimeoutError) = true := by
  cases err <;> simp_all [isLostHost, isClientConnectionError, isClientError, isTimeoutError]

/-- What is no error of the library is none of the API. -/
theorem isProxmoxAPIError_of_not {err : Exc} (h : err.isProxmoxError = false) :
    err.isProxmoxAPIError = false := by
  cases err <;> simp_all [isProxmoxError, isProxmoxAPIError]

end Exc

/-! ## JSON values -/

/-- A value read from a JSON body, or handed in to be written into one.  A number with a point
is the double that it is read as. -/
inductive Json where
  | null
  | bool (b : Bool)
  | int (n : Int)
  | float (q : ℚ)
  | str (s : String)
  | arr (items : List Json)
  | obj (fields : List (String × Json))

/-- A Python dictionary with string keys, in insertion order. -/
abbrev Dict := List (String × Json)

namespace Dict

/-- {lit}`d[key] = value`: a key that is there keeps its place. -/
def insert (d : Dict) (key : String) (value : Json) : Dict :=
  match d with
  | [] => [(key, value)]
  | (k, v) :: rest => if k = key then (k, value) :: rest else (k, v) :: insert rest key value

/-- {lit}`\x7b**a, **b\x7d`. -/
def merge (a b : Dict) : Dict :=
  b.foldl (fun d kv => insert d kv.1 kv.2) a

/-- {lit}`d.get(key, default)`. -/
def getD (d : Dict) (key : String) (default : Json) : Json :=
  (d.lookup key).getD default

/-- {lit}`d.get(key)`. -/
def get (d : Dict) (key : String) : Json :=
  getD d key .null

end Dict

namespace Json

/-- {lit}`type(value).__name__`. -/
def typeName : Json → String
  | null => "NoneType"
  | bool _ => "bool"
  | int _ => "int"
  | float _ => "float"
  | str _ => "str"
  | arr _ => "list"
  | obj _ => "dict"

/-- {lit}`bool(value)`. -/
def truthy : Json → Bool
  | null => false
  | bool b => b
  | int n => n != 0
  | float q => q != 0
  | str s => s != ""
  | arr items => !items.isEmpty
  | obj fields => !fields.isEmpty

/-- {lit}`value[key]` for a string key. -/
def getItem (value : Json) (key : String) : Except Exc Json :=
  match value with
  | obj fields =>
      match fields.lookup key with
      | some v => .ok v
      | none => .error (.keyError key)
  | arr _ => .error (.typeError "list indices must be integers or slices, not str")
  | str _ => .error (.typeError "string indices must be integers, not 'str'")
  | v => .error (.typeError ("'" ++ v.typeName ++ "' object is not subscriptable"))

/-- {lit}`value.get(key)`; {lit}`None` is {lit}`null`. -/
def dictGet (value : Json) (key : String) : Except Exc Json :=
  match value with
  | obj fields => .ok ((fields.lookup key).getD null)
  | v => .error (.attributeError ("'" ++ v.typeName ++ "' object has no attribute 'get'"))

/-- The value under a key of an object, where it has one. -/
def field? (value : Json) (key : String) : Option Json :=
  match value with
  | obj fields => fields.lookup key
  | _ => none

/-- {lit}`value is not None`. -/
def isSome : Json → Bool
  | null => false
  | _ => true

/-- A key is there exactly if its value is found. -/
@[simp]
theorem getItem_eq_ok_iff (value v : Json) (key : String) :
    value.getItem key = .ok v ↔ value.field? key = some v := by
  cases value <;> simp [getItem, field?]
  rename_i fields
  cases fields.lookup key <;> simp

/-- Subscription raises what Python's does. -/
theorem getItem_raises {value : Json} {key : String} {e : Exc}
    (h : value.getItem key = .error e) : e.isLookup = true := by
  cases value with
  | obj fields =>
      simp only [getItem] at h
      split at h
      · contradiction
      · cases h
        rfl
  | null => cases h; rfl
  | bool b => cases h; rfl
  | int n => cases h; rfl
  | float q => cases h; rfl
  | str s => cases h; rfl
  | arr items => cases h; rfl

/-- So does {lit}`get`. -/
theorem dictGet_raises {value : Json} {key : String} {e : Exc}
    (h : value.dictGet key = .error e) : e.isLookup = true := by
  cases value with
  | obj fields => contradiction
  | null => cases h; rfl
  | bool b => cases h; rfl
  | int n => cases h; rfl
  | float q => cases h; rfl
  | str s => cases h; rfl
  | arr items => cases h; rfl

/-- A value that has one key can be asked for any. -/
theorem dictGet_eq_ok {value v : Json} {key : String} (h : value.field? key = some v)
    (key' : String) : value.dictGet key' = .ok ((value.field? key').getD null) := by
  cases value with
  | obj fields => rfl
  | null => contradiction
  | bool b => contradiction
  | int n => contradiction
  | float q => contradiction
  | str s => contradiction
  | arr items => contradiction

end Json

/-! ## Text -/

namespace Text

/-- {lit}`s.lstrip(c)` for one character. -/
def lstrip (c : Char) (s : String) : String :=
  String.ofList (s.toList.dropWhile (· = c))

/-- {lit}`s.rstrip(c)` for one character. -/
def rstrip (c : Char) (s : String) : String :=
  String.ofList (s.toList.rdropWhile (· = c))

/-- {lit}`s.replace(c, "")` for one character. -/
def without (c : Char) (s : String) : String :=
  String.ofList (s.toList.filter (· ≠ c))

/-- {lit}`c.isspace()`. -/
def isSpace (c : Char) : Bool :=
  let n := c.toNat
  (9 ≤ n && n ≤ 13) || (28 ≤ n && n ≤ 32) || n = 0x85 || n = 0xa0 || n = 0x1680 ||
    (0x2000 ≤ n && n ≤ 0x200a) || n = 0x2028 || n = 0x2029 || n = 0x202f || n = 0x205f ||
    n = 0x3000

/-- {lit}`s.strip()`. -/
def strip (s : String) : String :=
  String.ofList ((s.toList.dropWhile isSpace).rdropWhile isSpace)

/-- {lit}`part in s`. -/
def contains (s part : String) : Bool :=
  decide (part.toList <:+: s.toList)

/-- {lit}`s.startswith(start)`. -/
def startsWith (s start : String) : Bool :=
  start.toList.isPrefixOf s.toList

/-- What stands before the first occurrence of a character. -/
def before (c : Char) (s : String) : String :=
  String.ofList (s.toList.takeWhile (· ≠ c))

end Text

end AioProxmox
