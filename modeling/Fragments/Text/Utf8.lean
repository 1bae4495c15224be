import Fragments.Text.Blank

namespace Fragments.Utf8

def encode (chars : List Char) : List UInt8 :=
  chars.flatMap String.utf8EncodeChar

inductive Mistake
  | start
  | continuation
  | truncated
  deriving DecidableEq

structure Failure where
  mistake : Mistake
  position : Nat
  count : Nat
  byte : UInt8
  deriving DecidableEq

def Mistake.reason : Mistake → String
  | start => "invalid start byte"
  | continuation => "invalid continuation byte"
  | truncated => "unexpected end of data"

def Failure.describe (f : Failure) (reason : String) : String :=
  if f.count = 1 then
    s!"'utf-8' codec can't decode byte 0x{Text.hex 2 f.byte.toNat} in position "
      ++
      s!"{f.position}: {reason}"
  else
    s!"'utf-8' codec can't decode bytes in position {f.position}-" ++
      s!"{f.position + f.count - 1}: {reason}"

def Failure.message (f : Failure) : String := f.describe f.mistake.reason

def isContinuation (byte : UInt8) : Bool := 0x80 ≤ byte && byte < 0xC0

/-- Whether `second` may follow the lead byte `first`: no overlong form, no
surrogate, nothing past the last character. -/
def mayFollow (first second : UInt8) : Bool :=
  isContinuation second &&
    (first != 0xE0 || 0xA0 ≤ second) && (first != 0xED || second < 0xA0) &&
    (first != 0xF0 || 0x90 ≤ second) && (first != 0xF4 || second < 0x90)

def payload (byte : UInt8) : Nat := byte.toNat % 64

def decodeFrom (position : Nat) : List UInt8 → Except Failure (List Char)
  | [] => .ok []
  | a :: afterA =>
      if a < 0x80 then
        (decodeFrom (position + 1) afterA).map (Char.ofNat a.toNat :: ·)
      else if a < 0xC2 || 0xF4 < a then .error ⟨.start, position, 1, a⟩
      else
        match afterA with
        | [] => .error ⟨.truncated, position, 1, a⟩
        | b :: afterB =>
            if !mayFollow a b then .error ⟨.continuation, position, 1, a⟩
            else if a < 0xE0 then
              (decodeFrom (position + 2) afterB).map
                (Char.ofNat (a.toNat % 32 * 64 + payload b) :: ·)
            else
              match afterB with
              | [] => .error ⟨.truncated, position, 2, a⟩
              | c :: afterC =>
                  if !isContinuation c then
                    .error ⟨.continuation, position, 2, a⟩
                  else if a < 0xF0 then
                    (decodeFrom (position + 3) afterC).map
                      (Char.ofNat ((a.toNat % 16 * 64 + payload b) * 64 +
                        payload c) :: ·)
                  else
                    match afterC with
                    | [] => .error ⟨.truncated, position, 3, a⟩
                    | d :: afterD =>
                        if !isContinuation d then
                          .error ⟨.continuation, position, 3, a⟩
                        else
                          (decodeFrom (position + 4) afterD).map
                            (Char.ofNat
                              (((a.toNat % 8 * 64 + payload b) * 64 +
                                payload c) * 64 +
                              payload d) :: ·)

def decode (bytes : List UInt8) : Except Failure (List Char) :=
  decodeFrom 0 bytes

def Failure.isPending (f : Failure) (bytes : List UInt8) : Bool :=
  match f.mistake, bytes.drop f.position with
  | .truncated, _ => true
  | .continuation, [0xED, b] => isContinuation b
  | _, _ => false

end Fragments.Utf8
