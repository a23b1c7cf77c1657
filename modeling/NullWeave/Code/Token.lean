import NullWeave.Code.Bytes
import NullWeave.Code.Error

/-!
# Tokens

Encoded code refers to strings, members and types by tokens.  A token names a
table and a row of it.  Rows are given out in the order in which keys are first
asked for, counted from one, and a key keeps its row.
-/

namespace NullWeave

/-- A reference to a row of a table: the table in the top byte, the row in the other three. -/
structure Token where
  value : UInt32
deriving DecidableEq, Inhabited

namespace Token

/-- The number of rows that a token can tell apart. -/
def rowLimit : Nat := 0x1000000

/-- The token for a row of a table. -/
def ofRow (table : UInt8) (row : Nat) : Token :=
  ⟨UInt32.ofNat (table.toNat * rowLimit + row)⟩

/-- The table that a token names. -/
def table (token : Token) : UInt8 := UInt8.ofNat (token.value.toNat / rowLimit)

/-- The row that a token names. -/
def row (token : Token) : Nat := token.value.toNat % rowLimit

/-- A token names the table it was made for, as long as the row fits. -/
theorem table_ofRow (table : UInt8) {row : Nat} (fits : row < rowLimit) :
    (ofRow table row).table = table := by
  have small : table.toNat < 256 := table.toNat_lt
  apply UInt8.toNat_inj.1
  simp only [rowLimit] at fits
  simp only [Token.table, ofRow, rowLimit, UInt8.toNat_ofNat', UInt32.toNat_ofNat']
  omega

/-- A token names the row it was made for, as long as the row fits. -/
theorem row_ofRow (table : UInt8) {row : Nat} (fits : row < rowLimit) :
    (ofRow table row).row = row := by
  have small : table.toNat < 256 := table.toNat_lt
  simp only [rowLimit] at fits
  simp only [Token.row, ofRow, rowLimit, UInt32.toNat_ofNat']
  omega

/-- The bytes of a token. -/
def bytes (token : Token) : List UInt8 := littleEndian 4 token.value.toNat

end Token

/-- The greatest row that fits in a token. -/
def maxRow : Nat := Token.rowLimit - 1

/-- The keys that have a token, each with its table, in the order of first request. -/
structure TokenPool where
  entries : List (UInt8 × String) := []
deriving DecidableEq, Inhabited

namespace TokenPool

/-! ## Tables -/

/-- The table of types without generic arguments. -/
def typeRef : UInt8 := 0x01

/-- The table of fields and methods. -/
def memberRef : UInt8 := 0x0A

/-- The table of all other type signatures. -/
def typeSpec : UInt8 := 0x1B

/-- The table of strings. -/
def userString : UInt8 := 0x70

/-- The keys of a table, in the order of their rows. -/
def keys (pool : TokenPool) (table : UInt8) : List String :=
  (pool.entries.filter (·.1 == table)).map (·.2)

/-- The number of rows given out in a table. -/
def count (pool : TokenPool) (table : UInt8) : Nat := (pool.keys table).length

/-- The token for a key of a table, and the pool in which the key has it. -/
def token (pool : TokenPool) (table : UInt8) (key : String) :
    Except CodeError (TokenPool × Token) :=
  match (pool.keys table).findIdx? (· == key) with
  | some index => .ok (pool, .ofRow table (index + 1))
  | none =>
      if pool.count table < maxRow then
        .ok ({ entries := pool.entries ++ [(table, key)] },
          .ofRow table (pool.count table + 1))
      else
        .error (.tokenOverflow table)

/-- The table in which a type signature has its token. -/
def sigTable : Signature → UInt8
  | .named _ => typeRef
  | _ => typeSpec

end TokenPool

end NullWeave
