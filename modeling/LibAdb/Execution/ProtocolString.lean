import LibAdb.Execution.SocketSpec
import LibAdb.Library.Fragments

-- Strings behind four hexadecimal digits of their length.

-- Base 16 allows for a `0x` before the first digit.
def skipHexPrefix (s : Bytes) : Bytes :=
  match s with
  | 48 :: x :: c :: rest => if (x = 120 || x = 88) && (hexValue c).isSome then c :: rest else s
  | _ => s

-- The value of the leading digits. Those of a buffer of four characters do not overflow.
def hexNumber (s : Bytes) : Nat :=
  ((s.map hexValue).takeWhile Option.isSome).foldl (fun n c => 16 * n + (c.getD 0).toNat) 0

-- `strtoul` in base 16.
def strtoul (buf : Bytes) : Nat :=
  let s := (buf.cString []).dropWhile isSpace
  if s.head? = some 45 then
    (0x10000000000000000 - hexNumber (skipHexPrefix s.tail)) % 0x10000000000000000
  else if s.head? = some 43 then hexNumber (skipHexPrefix s.tail)
  else hexNumber (skipHexPrefix s)

-- `lengthError` is the exception that `std::string::resize` throws. The text of an error is followed
-- by that of `errno`.
inductive ProtocolResult where
  | ok (s : Bytes) (rest : List Bytes)
  | error (text : Bytes)
  | lengthError
  deriving DecidableEq, Repr

def stringMaxSize : Nat := 0x7fffffffffffffff

def readProtocolString (fragments : List Bytes) : ProtocolResult :=
  match StreamReader.exactly 4 fragments with
  | none => .error (ascii "protocol fault (couldn't read status length)")
  | some (buf, fragments) =>
    let len := strtoul buf
    if len > stringMaxSize then .lengthError
    else
      match StreamReader.exactly len fragments with
      | none => .error (ascii "protocol fault (couldn't read status message)")
      | some (s, rest) => .ok s rest

-- The framing of `device_tracker_send`, which cuts the digits off after the fourth.
def deviceTrackerData (s : Bytes) : Bytes :=
  (hexDigits (s.length % 0x100000000)).take 4 ++ s
