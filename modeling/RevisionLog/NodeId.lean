import RevisionLog.Text.Hex

/-!
# Node ids

A node id is the 20-byte name of a revision, derived from its content. Ids are compared byte by
byte. Their text is 40 hexadecimal digits, and every id is read back from its text
(`ofHex_toHex`).
-/

namespace RevisionLog

/-- The 20-byte name of a revision. -/
structure NodeId where
  bytes : Bytes
  length_eq : bytes.length = 20
  deriving DecidableEq

namespace NodeId

/-- Why some bytes are not a node id or the text of one. -/
inductive Fault
  /-- The text is not 40 hexadecimal digits. -/
  | hex (text : Bytes)
  /-- There are `count` bytes instead of 20. -/
  | length (count : Nat)
  deriving DecidableEq

/-- The wording of a fault. -/
def Fault.message : Fault → String
  | .hex text =>
    "[" ++ ", ".intercalate (text.map fun b => toString b.toNat) ++ "] is not a 20-byte hex string"
  | .length count => s!"expect 20 bytes but got {count}"

/-- The id of parents that do not exist. -/
def null : NodeId := ⟨List.replicate 20 0, by decide⟩

instance : Inhabited NodeId := ⟨null⟩

/-- Ids are ordered as their bytes are, the first difference deciding. -/
instance : Ord NodeId := ⟨fun a b => compare a.bytes b.bytes⟩

/-- The id made of exactly these bytes. -/
def ofBytes (bytes : Bytes) : Except Fault NodeId :=
  if h : bytes.length = 20 then .ok ⟨bytes, h⟩ else .error (.length bytes.length)

/-- The id that 40 hexadecimal digits write. -/
def ofHex (text : Bytes) : Except Fault NodeId :=
  match Hex.decode? text with
  | some bytes => if h : bytes.length = 20 then .ok ⟨bytes, h⟩ else .error (.hex text)
  | none => .error (.hex text)

/-- The 40 digits of an id, in lower case. -/
def toHex (node : NodeId) : Bytes := Hex.encode node.bytes

/-- The first 12 digits of an id, for short listings. -/
def shortHex (node : NodeId) : Bytes := node.toHex.take 12

/-- Whether this is the id of a parent that does not exist. -/
def isNull (node : NodeId) : Bool := node = null

/-- Whether an id is made of these bytes. -/
def isBytes (node : NodeId) (bytes : Bytes) : Bool := node.bytes = bytes

instance : ToString NodeId := ⟨fun node => Hex.toString node.toHex⟩

theorem ofHex_toHex (node : NodeId) : ofHex node.toHex = .ok node := by
  simp [ofHex, toHex, Hex.decode?_encode, node.length_eq]

end NodeId

end RevisionLog
