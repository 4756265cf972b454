import ApiDocs.Text.Decimal

/-!
# Reading bytes as text

Source files are expected to be UTF-8, but a stray byte must not stop a run. `pieces` cuts a byte
sequence into encoded scalar values and **broken** parts, a broken part being the longest start
of an encoding that is not completed (or one byte that starts none). `decode` copies the scalar
values and writes each broken byte as a numeric character reference.
-/

namespace ApiDocs.Text

/-- A part of a byte sequence. -/
inductive Piece where
  /-- The complete encoding of a scalar value. -/
  | scalar (c : Char)
  /-- Bytes that begin an encoding and do not complete it. -/
  | broken (bytes : List UInt8)
  deriving DecidableEq, Repr

/-- A byte that continues an encoding. -/
def isContinuation (b : UInt8) : Bool := 0x80 ≤ b && b ≤ 0xBF

/-- The bytes that may stand second in an encoding of three or four bytes. -/
def isSecond (lead b : UInt8) : Bool :=
  if lead = 0xE0 then 0xA0 ≤ b && b ≤ 0xBF
  else if lead = 0xED then 0x80 ≤ b && b ≤ 0x9F
  else if lead = 0xF0 then 0x90 ≤ b && b ≤ 0xBF
  else if lead = 0xF4 then 0x80 ≤ b && b ≤ 0x8F
  else isContinuation b

/-- The payload of a continuation byte. -/
def payload (b : UInt8) : Nat := b.toNat - 0x80

/-- The piece that begins with the byte `lead`, and the bytes after it. -/
def piece (lead : UInt8) (rest : List UInt8) : Piece × List UInt8 :=
  if lead < 0x80 then (.scalar (.ofNat lead.toNat), rest)
  else if 0xC2 ≤ lead && lead ≤ 0xDF then
    match rest with
    | b :: rest' =>
      if isContinuation b then
        (.scalar (.ofNat ((lead.toNat - 0xC0) * 0x40 + payload b)), rest')
      else (.broken [lead], rest)
    | [] => (.broken [lead], rest)
  else if 0xE0 ≤ lead && lead ≤ 0xEF then
    match rest with
    | b :: rest' =>
      if isSecond lead b then
        match rest' with
        | c :: rest'' =>
          if isContinuation c then
            (.scalar (.ofNat ((lead.toNat - 0xE0) * 0x1000 + payload b * 0x40 + payload c)),
              rest'')
          else (.broken [lead, b], rest')
        | [] => (.broken [lead, b], rest')
      else (.broken [lead], rest)
    | [] => (.broken [lead], rest)
  else if 0xF0 ≤ lead && lead ≤ 0xF4 then
    match rest with
    | b :: rest' =>
      if isSecond lead b then
        match rest' with
        | c :: rest'' =>
          if isContinuation c then
            match rest'' with
            | d :: rest''' =>
              if isContinuation d then
                (.scalar (.ofNat ((lead.toNat - 0xF0) * 0x40000 + payload b * 0x1000
                  + payload c * 0x40 + payload d)), rest''')
              else (.broken [lead, b, c], rest'')
            | [] => (.broken [lead, b, c], rest'')
          else (.broken [lead, b], rest')
        | [] => (.broken [lead, b], rest')
      else (.broken [lead], rest)
    | [] => (.broken [lead], rest)
  else (.broken [lead], rest)

/-- A piece takes bytes from the front only. -/
theorem piece_length_le (lead : UInt8) (rest : List UInt8) :
    (piece lead rest).2.length ≤ rest.length := by
  unfold piece
  repeat' split
  all_goals simp only [List.length_cons]
  all_goals omega

/-- The pieces of a byte sequence, in order. -/
def pieces : List UInt8 → List Piece
  | [] => []
  | lead :: rest => (piece lead rest).1 :: pieces (piece lead rest).2
termination_by bytes => bytes.length
decreasing_by
  have := piece_length_le lead rest
  simp only [List.length_cons]
  omega

/-- A byte as a numeric character reference. -/
def byteReference (b : UInt8) : List Char := ['&', '#'] ++ decimal b.toNat ++ [';']

/-- The text of a piece. -/
def Piece.text : Piece → List Char
  | .scalar c => [c]
  | .broken bytes => bytes.flatMap byteReference

/-- Reads bytes as UTF-8; each byte that belongs to no complete encoding becomes a numeric
character reference. -/
def decode (bytes : List UInt8) : String := .ofList ((pieces bytes).flatMap Piece.text)

end ApiDocs.Text
