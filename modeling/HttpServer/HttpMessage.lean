import HttpServer.Cpp
import HttpServer.Search
import Mathlib.Data.Finmap
import Mathlib.Data.Nat.Digits.Defs

/-!
# HTTP requests and responses

`HttpRequest` and `HttpResponse` of `application/http`, with the pieces of the C++
library they are made with: string maps, `std::stoul`, and the extraction of
whitespace-separated tokens from a stream.

A `std::unordered_map` is a finite map, which has no order. Where a loop runs over
one, the order comes from an `IterationOrder`, about which nothing is known but
that it lists each entry once.
-/

/-- A `std::unordered_map<std::string, std::string>`. -/
abbrev StringMap := Finmap (fun _ : Bytes => Bytes)

/-- **An order to iterate over string maps in.** -/
structure IterationOrder where
  /-- The entries of a map, in the order in which a loop meets them. -/
  entries : StringMap → AList (fun _ : Bytes => Bytes)
  /-- They are the entries of the map. -/
  toFinmap_entries : ∀ m, (entries m).toFinmap = m

/-- Some order. -/
noncomputable def IterationOrder.arbitrary : IterationOrder where
  entries m := Classical.choose
    (Finmap.induction_on m fun l => ⟨l, rfl⟩ : ∃ l : AList _, l.toFinmap = m)
  toFinmap_entries m := Classical.choose_spec
    (Finmap.induction_on m fun l => ⟨l, rfl⟩ : ∃ l : AList _, l.toFinmap = m)

/-! ## Library functions -/

/-- The line terminator. -/
def crlf : Bytes := [0x0D, 0x0A]

/-- `std::isspace` in the classic locale. -/
def isSpace (c : UInt8) : Bool := c == 0x20 || (0x09 ≤ c && c ≤ 0x0D)

def isDigit (c : UInt8) : Bool := 0x30 ≤ c && c ≤ 0x39

/-- Extraction of a `std::string` from a stream: the next token and what is left
of the stream. -/
def extractToken (s : Bytes) : Option (Bytes × Bytes) :=
  let s := s.dropWhile isSpace
  let token := s.takeWhile fun c => !isSpace c
  if token.isEmpty then none else some (token, s.dropWhile fun c => !isSpace c)

/-- The value of a string of decimal digits. -/
def decimal (digits : Bytes) : ℕ := digits.foldl (fun n c => 10 * n + (c.toNat - 0x30)) 0

/-- `std::stoul`: blanks, an optional sign and the digits that follow. A negative
number is taken modulo `2 ^ 64`. -/
def stoul (s : Bytes) : Except StdException ℕ :=
  let s := s.dropWhile isSpace
  let (negative, s) :=
    match s with
    | 0x2D :: t => (true, t)
    | 0x2B :: t => (false, t)
    | t => (false, t)
  let digits := s.takeWhile isDigit
  if digits.isEmpty then .error .invalidArgument
  else
    let n := decimal digits
    if 2 ^ 64 ≤ n then .error .outOfRange
    else .ok (if negative then (2 ^ 64 - n) % 2 ^ 64 else n)

/-- A number in decimal. -/
def toDecimal (n : ℕ) : Bytes :=
  if n = 0 then [0x30] else (Nat.digits 10 n).reverse.map fun d => .ofNat (0x30 + d)

/-! ## Requests -/

/-- `HttpRequest`. -/
structure HttpRequest where
  method : Bytes := []
  path : Bytes := []
  version : Bytes := []
  headers : StringMap := ∅
  body : Bytes := []
  formData : StringMap := ∅
  deriving DecidableEq

/-- The digit of a hexadecimal character. -/
def hexDigit (c : UInt8) : Option UInt8 :=
  if 0x30 ≤ c && c ≤ 0x39 then some (c - 0x30)
  else if 0x41 ≤ c && c ≤ 0x46 then some (c - 0x41 + 10)
  else if 0x61 ≤ c && c ≤ 0x66 then some (c - 0x61 + 10)
  else none

/-- `strtol` in base 16 on two characters, if it reads both of them: two digits,
or a blank or a sign and a digit. -/
def strtolHex (a b : UInt8) : Option UInt8 :=
  match hexDigit a, hexDigit b with
  | some x, some y => some (16 * x + y)
  | none, some y =>
    if isSpace a || a == 0x2B then some y
    else if a == 0x2D then some (0 - y)
    else none
  | _, none => none

/-- `urlDecode`. -/
def urlDecode : Bytes → Bytes
  | [] => []
  | c :: s =>
    if c = 0x25 then
      match s with
      | a :: b :: t =>
        match strtolHex a b with
        | some v => v :: urlDecode t
        | none => c :: urlDecode (a :: b :: t)
      | s => c :: urlDecode s
    else if c = 0x2B then 0x20 :: urlDecode s
    else c :: urlDecode s

namespace HttpRequest

def addHeader (req : HttpRequest) (key value : Bytes) : HttpRequest :=
  { req with headers := req.headers.insert key value }

/-- `GetHeader`: the empty string where there is no such header. -/
def getHeader (req : HttpRequest) (key : Bytes) : Bytes := (req.headers.lookup key).getD []

/-- What `ParseFormData` does with one of the pieces between the ampersands. -/
def addFormPair (formData : StringMap) (pair : Bytes) : StringMap :=
  match Search.find (lit "=") pair with
  | none => formData
  | some eqPos =>
    formData.insert (urlDecode (pair.take eqPos)) (urlDecode (pair.drop (eqPos + 1)))

/-- `ParseFormData`. -/
def parseFormData (req : HttpRequest) : HttpRequest :=
  if Search.contains (lit "application/x-www-form-urlencoded") (req.getHeader (lit "Content-Type"))
  then { req with formData := (req.body.splitOn 0x26).foldl addFormPair ∅ }
  else req

/-- A header that was just added is found, with its new value. -/
theorem getHeader_addHeader (req : HttpRequest) (key value : Bytes) :
    (req.addHeader key value).getHeader key = value := by
  unfold getHeader addHeader
  rw [Finmap.lookup_insert]
  rfl

@[simp] theorem parseFormData_headers (req : HttpRequest) :
    req.parseFormData.headers = req.headers := by
  unfold parseFormData
  split <;> rfl

end HttpRequest

/-! ## Responses -/

/-- An `int` in decimal. -/
def intToDecimal : ℤ → Bytes
  | .ofNat n => toDecimal n
  | .negSucc n => 0x2D :: toDecimal (n + 1)

/-- `HttpResponse`. -/
structure HttpResponse where
  statusCode : ℤ := 200
  statusMessage : Bytes := lit "OK"
  headers : StringMap := ∅
  body : Bytes := []
  deriving DecidableEq

namespace HttpResponse

/-- `GetDefaultMessage`. -/
def getDefaultMessage (code : ℤ) : Bytes :=
  if code = 200 then lit "OK"
  else if code = 400 then lit "Bad Request"
  else if code = 404 then lit "Not Found"
  else if code = 500 then lit "Internal Server Error"
  else lit "Unknown"

def setStatus (resp : HttpResponse) (code : ℤ) (message : Bytes) : HttpResponse :=
  { resp with
    statusCode := code
    statusMessage := if message.isEmpty then getDefaultMessage code else message }

def addHeader (resp : HttpResponse) (key value : Bytes) : HttpResponse :=
  { resp with headers := resp.headers.insert key value }

def setBody (resp : HttpResponse) (body : Bytes) : HttpResponse := { resp with body }

def setContentType (resp : HttpResponse) (type : Bytes) : HttpResponse :=
  resp.addHeader (lit "Content-Type") type

/-- `ToString`. The headers come in the order the loop meets them. -/
def toString (order : IterationOrder) (resp : HttpResponse) : Bytes :=
  lit "HTTP/1.1 " ++ intToDecimal resp.statusCode ++ lit " " ++ resp.statusMessage ++ crlf
    ++ ((order.entries resp.headers).entries.map fun e => e.1 ++ lit ": " ++ e.2 ++ crlf).flatten
    ++ lit "Content-Length: " ++ toDecimal resp.body.length ++ crlf ++ crlf ++ resp.body

end HttpResponse
