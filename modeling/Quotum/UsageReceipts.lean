import Quotum.Decimal
import Quotum.General.Base64
import Quotum.General.JsonReading

/-! Usage receipts: the receipt id that locates an event, the cursor that continues a list of its deductions, and the pages of that list. -/

namespace Quotum.UsageReceipts
open General

inductive ReceiptFailure where
  | invalidRequest (message : String)
  | notFound (message code : String)
  deriving DecidableEq

def utf8Bytes (text : Text) : List Nat :=
  text.flatMap fun character => (String.utf8EncodeChar character).map UInt8.toNat

/-- Bytes as text. What stands beyond ASCII is read as replacement characters: no receipt id or cursor that is accepted has any. -/
def asciiText (bytes : List Nat) : Text :=
  bytes.map fun byte => if byte < 128 then Char.ofNat byte else '\uFFFD'

def jsonPair (first second : Text) : Text :=
  '[' :: Json.quoted first ++ ',' :: second ++ [']']

def receiptId (id recordedAt : Text) : Text :=
  ['u', 'r', '_'] ++ base64url (utf8Bytes (jsonPair id (Json.quoted recordedAt)))

section RecordedAt

def readDigits (count : Nat) (text : Text) : Option (Nat × Text) :=
  if (text.take count).length = count ∧ (text.take count).all Char.isDigit then
    some (Nat.ofDigitChars 10 (text.take count) 0, text.drop count)
  else none

def readOneOf (allowed : List Char) : Text → Option Text
  | [] => none
  | first :: rest => if first ∈ allowed then some rest else none

def readFraction (text : Text) : Option Text :=
  if text.head? = some '.' then
    if 1 ≤ (text.tail.takeWhile Char.isDigit).length ∧ (text.tail.takeWhile Char.isDigit).length ≤ 6 then
      some (text.tail.dropWhile Char.isDigit)
    else none
  else some text

def readZone (text : Text) : Option (Nat × Nat) :=
  if text = ['Z'] then some (0, 0)
  else do
    let text ← readOneOf ['+', '-'] text
    let (hour, text) ← readDigits 2 text
    if text = [] then some (hour, 0)
    else
      let (minute, text) ← readDigits 2 (if text.head? = some ':' then text.tail else text)
      if text = [] then some (hour, minute) else none

structure RecordedAt where
  year : Nat
  month : Nat
  day : Nat
  hour : Nat
  minute : Nat
  second : Nat
  offsetHour : Nat
  offsetMinute : Nat
  deriving DecidableEq

def recordedAtParts (text : Text) : Option RecordedAt := do
  let (year, text) ← readDigits 4 text
  let text ← readOneOf ['-'] text
  let (month, text) ← readDigits 2 text
  let text ← readOneOf ['-'] text
  let (day, text) ← readDigits 2 text
  let text ← readOneOf [' ', 'T'] text
  let (hour, text) ← readDigits 2 text
  let text ← readOneOf [':'] text
  let (minute, text) ← readDigits 2 text
  let text ← readOneOf [':'] text
  let (second, text) ← readDigits 2 text
  let text ← readFraction text
  let (offsetHour, offsetMinute) ← readZone text
  some { year, month, day, hour, minute, second, offsetHour, offsetMinute }

def leapYear (year : Nat) : Bool :=
  year % 4 == 0 && (year % 100 != 0 || year % 400 == 0)

def daysInMonth (year month : Nat) : Nat :=
  if month = 0 then 0 else [31, if leapYear year then 29 else 28, 31, 30, 31, 30, 31, 31, 30, 31, 30, 31].getD (month - 1) 0

/-- A timestamp that the database accepts: a real calendar day, a time of day and an offset within ±15:59. -/
def isStorableRecordedAt (value : Text) : Bool :=
  match recordedAtParts value with
  | none => false
  | some parts =>
    decide (1 ≤ parts.year) && decide (1 ≤ parts.day) && decide (parts.day ≤ daysInMonth parts.year parts.month) &&
      decide (parts.hour ≤ 23) && decide (parts.minute ≤ 59) && decide (parts.second ≤ 59) && decide (parts.offsetHour ≤ 15) &&
      decide (parts.offsetMinute ≤ 59)

end RecordedAt

def uuidPattern (text : Text) : Bool :=
  decide (text.length = 36) && text.zipIdx.all fun entry =>
    if entry.2 ∈ [8, 13, 18, 23] then entry.1 == '-' else (Json.hexDigit entry.1).isSome

def receiptPattern (value : Text) : Bool :=
  (value.take 3 == ['u', 'r', '_']) && decide (1 ≤ (value.drop 3).length) && decide ((value.drop 3).length ≤ 500) &&
    (value.drop 3).all fun character => base64urlAlphabet.contains character

/-- Whether a receipt id may locate an event of this id and time. `dateParses` says which texts the runtime can read as dates. -/
def locates (dateParses : Text → Bool) (id recordedAt : Text) : Bool :=
  uuidPattern id && isStorableRecordedAt recordedAt && dateParses recordedAt

def parseReceiptId (dateParses : Text → Bool) (value : Text) : Except ReceiptFailure (Text × Text) :=
  if receiptPattern value then
    match Json.readPair Json.readString (asciiText (base64Bytes (value.drop 3))) with
    | none => .error (.invalidRequest "Invalid receiptId")
    | some (id, recordedAt) =>
      if locates dateParses id recordedAt ∧ receiptId id recordedAt = value then .ok (id, recordedAt)
      else .error (.invalidRequest "Invalid receiptId")
  else .error (.invalidRequest "Invalid receiptId")

structure UsageDeduction where
  sourceKind : Text
  sourceKey : Text
  quantity : Text
  expiresAt : Option Text
  deriving DecidableEq

/-- A usage event with its receipt, whose count is taken when the receipt is written. An array of the database has fewer than 2²⁸
elements. -/
structure UsageEvent where
  deductions : List UsageDeduction
  deductionCount : Nat
  counted : deductionCount = deductions.length
  fits : deductions.length < 2 ^ 28

structure UsageReceiptInput where
  billingAccountId : Text
  entityId : Option Text
  receiptId : Text
  deriving DecidableEq

structure DeductionItem where
  sourceKind : Text
  sourceKey : Text
  value : Text
  expiresAt : Option Text
  deriving DecidableEq

structure UsageDeductionPage where
  items : List DeductionItem
  nextCursor : Option Text
  deriving DecidableEq

def UsageDeduction.item (deduction : UsageDeduction) : DeductionItem where
  sourceKind := deduction.sourceKind
  sourceKey := deduction.sourceKey
  value := deduction.quantity
  expiresAt := deduction.expiresAt

def utf16Length (text : Text) : Nat :=
  (text.map fun character => if character.toNat < 0x10000 then 1 else 2).sum

def safeInteger (value : ℚ) : Option Int :=
  if value.den = 1 ∧ |value.num| < 2 ^ 53 then some value.num else none

def encodeCursor (receiptId : Text) (offset : Nat) : Text :=
  base64url (utf8Bytes (jsonPair receiptId (Nat.toDigits 10 offset)))

def decodeCursor (receiptId : Text) (deductionCount : Nat) (cursor : Text) : Option Nat :=
  if utf16Length cursor > 1024 then none
  else
    match Json.readPair Json.readNumber (asciiText (base64Bytes cursor)) with
    | none => none
    | some (located, number) =>
      match safeInteger number with
      | none => none
      | some offset =>
        if located ≠ receiptId ∨ offset < 0 ∨ (deductionCount : Int) < offset then none else some offset.toNat

def pageLimit (limit : Option Int) : Except ReceiptFailure Nat :=
  let limit := limit.getD 50
  if limit < 1 ∨ 100 < limit then .error (.invalidRequest "limit must be between 1 and 100") else .ok limit.toNat

def pageOffset (receiptId : Text) (deductionCount : Nat) : Option Text → Except ReceiptFailure Nat
  | none => .ok 0
  | some cursor =>
    match decodeCursor receiptId deductionCount cursor with
    | none => .error (.invalidRequest "Invalid receipt deduction cursor")
    | some offset => .ok offset

/-- The page of an event's deductions after an offset, probed with one row more than its limit. -/
def deductionPage (receiptId : Text) (event : UsageEvent) (offset limit : Nat) : UsageDeductionPage :=
  let rows := ((event.deductions.zipIdx 1).filter fun row => decide (offset < row.2)).take (limit + 1)
  { items := (rows.take limit).map fun row => row.1.item
    nextCursor := if limit < rows.length then some (encodeCursor receiptId (offset + limit)) else none }

section Repository
variable (dateParses : Text → Bool) (find : Text → Text → UsageReceiptInput → Except ReceiptFailure UsageEvent)

/-- The event of a receipt. `find` reads it from the database by its id, time, account and entity. -/
def get (input : UsageReceiptInput) : Except ReceiptFailure UsageEvent := do
  let (id, recordedAt) ← parseReceiptId dateParses input.receiptId
  find id recordedAt input

def listDeductions (input : UsageReceiptInput) (cursor : Option Text) (limit : Option Int) : Except ReceiptFailure UsageDeductionPage := do
  let event ← get dateParses find input
  let limit ← pageLimit limit
  let offset ← pageOffset input.receiptId event.deductionCount cursor
  .ok (deductionPage input.receiptId event offset limit)

/-- The pages from a cursor on, each continued with the cursor that it returns, and what they list. -/
inductive Pages (input : UsageReceiptInput) (limit : Option Int) : Option Text → List DeductionItem → Prop where
  | last {cursor : Option Text} {page : UsageDeductionPage} (read : listDeductions dateParses find input cursor limit = .ok page)
      (ended : page.nextCursor = none) : Pages input limit cursor page.items
  | more {cursor : Option Text} {page : UsageDeductionPage} {next : Text} {items : List DeductionItem}
      (read : listDeductions dateParses find input cursor limit = .ok page) (continued : page.nextCursor = some next)
      (rest : Pages input limit (some next) items) : Pages input limit cursor (page.items ++ items)

end Repository

end Quotum.UsageReceipts
