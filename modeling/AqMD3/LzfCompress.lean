import AqMD3.LzfDecompress

/-!
`lzf_compress` with its hash table of offsets. The input and the output are memories, `ip`
and `op` indexes into them, and every index stored to is kept. Bytes of the input that were
hashed to a slot are referred back to, if they are near and the same.
-/

namespace AqMD3.Lzf

open CellMemory BackReferences

/-- Where the call reads and stores. `lit` is the length of the run so far, and the octet in
front of it is stored when it stops. -/
structure Writing where
  ip : Nat
  op : Nat
  lit : Nat
  out : Memory UInt8
  stored : List Nat

/-- The locals of a call. -/
structure Compressing extends Writing where
  hval : UInt32
  htab : Nat → UInt32

def first (data : Memory UInt8) (p : Nat) : UInt32 :=
  (data p).toUInt32 <<< 8 ||| (data (p + 1)).toUInt32

def next (data : Memory UInt8) (v : UInt32) (p : Nat) : UInt32 :=
  v <<< 8 ||| (data (p + 2)).toUInt32

def idx (h : UInt32) : Nat := (((h >>> 8) - h * 5) &&& 0xffff).toNat

def store (w : Writing) (index : Nat) (octet : UInt8) : Writing :=
  { w with out := write w.out index octet, stored := index :: w.stored }

/-- `*op++ = octet`. -/
def put (w : Writing) (octet : UInt8) : Writing := { store w w.op octet with op := w.op + 1 }

def startRun (w : Writing) : Writing := { w with lit := 0, op := w.op + 1 }

def stopRun (w : Writing) : Writing := store w (w.op - w.lit - 1) (UInt8.ofNat w.lit - 1)

/-- `!lit`. -/
def noRun (w : Writing) : Nat := if w.lit = 0 then 1 else 0

def undoRun (w : Writing) : Writing := { w with op := w.op - noRun w }

def copyLiteral (data : Memory UInt8) (w : Writing) : Writing :=
  let copied := { put w (data w.ip) with ip := w.ip + 1, lit := w.lit + 1 }
  if copied.lit = 1 <<< 5 then startRun (stopRun copied) else copied

/-- The two bytes of the 16-bit comparison. -/
def pair (data : Memory UInt8) (p : Nat) : UInt16 :=
  (data (p + 1)).toUInt16 <<< 8 ||| (data p).toUInt16

def Matches (data : Memory UInt8) (ref ip : Nat) : Prop :=
  ref < ip ∧ ip - ref - 1 < 1 <<< 13 ∧ 0 < ref ∧ data (ref + 2) = data (ip + 2) ∧
    pair data ref = pair data ip

instance (data : Memory UInt8) (ref ip : Nat) : Decidable (Matches data ref ip) :=
  inferInstanceAs (Decidable (_ ∧ _ ∧ _ ∧ _ ∧ _))

/-- The comparisons written out one after another, and whether the last of them held. -/
def unrolled (data : Memory UInt8) (ref ip : Nat) : Nat → Nat → Nat × Bool
  | 0, len => (len, true)
  | count + 1, len =>
      if data (ref + (len + 1)) ≠ data (ip + (len + 1)) then (len + 1, false)
      else unrolled data ref ip count (len + 1)

/-- `do len++; while (len < maxlen && ref[len] == ip[len])`, within so many turns. -/
def lengthen (data : Memory UInt8) (ref ip maxlen : Nat) : Nat → Nat → Nat
  | 0, len => len
  | turns + 1, len =>
      if len + 1 < maxlen ∧ data (ref + (len + 1)) = data (ip + (len + 1)) then
        lengthen data ref ip maxlen turns (len + 1)
      else len + 1

def matchLength (data : Memory UInt8) (ref ip maxlen : Nat) : Nat :=
  if 16 < maxlen then
    let compared := unrolled data ref ip 16 2
    if compared.2 then lengthen data ref ip maxlen (maxlen + 1) compared.1 else compared.1
  else lengthen data ref ip maxlen (maxlen + 1) 2

/-- The octets of a reference; `len` is two less than it copies. -/
def putReference (w : Writing) (off len : Nat) : Writing :=
  if len < 7 then put (put w (UInt8.ofNat ((off >>> 8) + (len <<< 5)))) (UInt8.ofNat off)
  else
    put (put (put w (UInt8.ofNat ((off >>> 8) + (7 <<< 5)))) (UInt8.ofNat (len - 7))) (UInt8.ofNat off)

def hash (s : Compressing) (hval : UInt32) : Compressing :=
  { s with hval := hval, htab := write s.htab (idx hval) (UInt32.ofNat s.ip) }

/-- The last two positions of what was referred to get into the table. -/
def rehash (data : Memory UInt8) (s : Compressing) : Compressing :=
  let back := { s with ip := s.ip - 2 }
  let once := hash back (next data (first data back.ip) back.ip)
  let second := { once with ip := once.ip + 1 }
  let twice := hash second (next data second.hval second.ip)
  { twice with ip := twice.ip + 1 }

/-- A turn of the main loop: 0 is returned, or the next one's locals. -/
inductive Compressed where
  | refused (w : Writing)
  | went (s : Compressing)

/-- The match at `ref` is written as a reference, behind the run before it. -/
def copyMatch (data : Memory UInt8) (inLen ref : Nat) (w : Writing) : Writing :=
  let maxlen := min (inLen - w.ip - 2) ((1 <<< 8) + (1 <<< 3))
  let len := matchLength data ref w.ip maxlen - 2
  let written := startRun (putReference (undoRun (stopRun w)) (w.ip - ref - 1) len)
  { written with ip := w.ip + 1 + (len + 1) }

def matchTurn (data : Memory UInt8) (inLen outLen ref : Nat) (s : Compressing) : Compressed :=
  if outLen ≤ s.op + 3 + 1 ∧ outLen ≤ s.op - noRun s.toWriting + 3 + 1 then .refused s.toWriting
  else
    let moved := { s with toWriting := copyMatch data inLen ref s.toWriting }
    -- The loop is left there, as its own test would.
    if inLen ≤ moved.ip + 2 then .went moved else .went (rehash data moved)

def literalTurn (data : Memory UInt8) (outLen : Nat) (s : Compressing) : Compressed :=
  if outLen ≤ s.op then .refused s.toWriting
  else .went { s with toWriting := copyLiteral data s.toWriting }

def compressTurn (data : Memory UInt8) (inLen outLen : Nat) (s : Compressing) : Compressed :=
  let hval := next data s.hval s.ip
  let ref := (s.htab (idx hval)).toNat
  if Matches data ref s.ip then matchTurn data inLen outLen ref (hash s hval)
  else literalTurn data outLen (hash s hval)

/-- The main loop, within so many turns. -/
def compressLoop (data : Memory UInt8) (inLen outLen : Nat) : Nat → Compressing → Compressed
  | 0, s => .refused s.toWriting
  | turns + 1, s =>
      if s.ip + 2 < inLen then
        match compressTurn data inLen outLen s with
        | .refused w => .refused w
        | .went s => compressLoop data inLen outLen turns s
      else .went s

/-- The bytes that are left when no three of them are. -/
def copyTail (data : Memory UInt8) (inLen : Nat) : Nat → Writing → Writing
  | 0, w => w
  | turns + 1, w => if w.ip < inLen then copyTail data inLen turns (copyLiteral data w) else w

/-- What is returned, the output, and the indexes stored to, the last one first. -/
structure LzfCompressed where
  bytes : Nat
  out : Memory UInt8
  stored : List Nat

def start (data memory : Memory UInt8) : Compressing :=
  { ip := 0, op := 1, lit := 0, out := memory, stored := [], hval := first data 0, htab := fun _ => 0 }

def finish (data : Memory UInt8) (inLen outLen : Nat) : Compressed → LzfCompressed
  | .refused w => ⟨0, w.out, w.stored⟩
  | .went s =>
      if outLen < s.op + 3 then ⟨0, s.out, s.stored⟩
      else
        let ended := undoRun (stopRun (copyTail data inLen inLen s.toWriting))
        ⟨ended.op, ended.out, ended.stored⟩

/-- The bytes of `data` in front of `inLen`, compressed to `memory`. -/
def lzfCompress (data : Memory UInt8) (inLen outLen : Nat) (memory : Memory UInt8) : LzfCompressed :=
  if inLen = 0 ∨ outLen = 0 then ⟨0, memory, []⟩
  else finish data inLen outLen (compressLoop data inLen outLen (inLen + 1) (start data memory))

end AqMD3.Lzf
