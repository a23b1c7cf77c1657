import NullWeave.Proofs.Code.Bytes
import NullWeave.Code.Token

/-!
# Tokens tell keys apart

A pool gives each key of a table a row and never takes it back.  It refuses a
key rather than give out a row that does not fit in a token, so two keys share
a token only if they are the same key of the same table.
-/

namespace NullWeave

namespace Token

/-- The token that four bytes stand for. -/
def ofBytes (bytes : List UInt8) : Token :=
  ⟨UInt32.ofNat (unsignedOf bytes)⟩

@[simp]
theorem length_bytes (token : Token) : token.bytes.length = 4 :=
  length_littleEndian 4 _

@[simp]
theorem ofBytes_bytes (token : Token) : ofBytes token.bytes = token := by
  have small : token.value.toNat < 256 ^ 4 := token.value.toNat_lt
  rw [ofBytes, bytes, unsignedOf_littleEndian, Nat.mod_eq_of_lt small,
    UInt32.ofNat_toNat]

end Token

namespace TokenPool

/-- The pools that come of requests: each starts empty, and no request was refused. -/
inductive Issued : TokenPool → Prop where
  | empty : Issued {}
  | token {pool after : TokenPool} {table : UInt8} {key : String}
      {token : Token} :
      Issued pool → pool.token table key = .ok (after, token) →
      Issued after

/-- The row of a key of a table, counted from zero. -/
def row? (pool : TokenPool) (table : UInt8) (key : String) : Option Nat :=
  (pool.keys table).findIdx? (· == key)

/-- Does a token stand for a key of a table? -/
def Names
    (pool : TokenPool) (token : Token) (table : UInt8) (key : String) :
    Prop :=
  ∃ row, pool.row? table key = some row ∧
    token = Token.ofRow table (row + 1)

/-- Does every key keep its row from one pool to a later one? -/
def Extends (pool later : TokenPool) : Prop :=
  ∀ table key row, pool.row? table key = some row →
    later.row? table key = some row

variable {pool after later final : TokenPool}

theorem Extends.refl (pool : TokenPool) : pool.Extends pool :=
  fun _ _ _ found => found

theorem Extends.trans
    (front : pool.Extends later) (back : later.Extends final) :
    pool.Extends final :=
  fun table key row found => back table key row (front table key row found)

theorem Names.mono
    {token : Token} {table : UInt8} {key : String}
    (names : pool.Names token table key) (onwards : pool.Extends later) :
    later.Names token table key := by
  obtain ⟨row, found, rfl⟩ := names
  exact ⟨row, onwards table key row found, rfl⟩

/-! ## One request -/

variable {table : UInt8} {key : String} {token : Token}

theorem keys_append (pool : TokenPool) (entries : List (UInt8 × String)) :
    keys ⟨pool.entries ++ entries⟩ table =
      pool.keys table ++ keys ⟨entries⟩ table := by
  rw [keys, keys, keys, List.filter_append, List.map_append]

/-- A request either finds the key or puts it behind the other ones, if there is room. -/
theorem token_eq_ok_cases
    (given : pool.token table key = .ok (after, token)) :
    (∃ row, pool.row? table key = some row ∧ after = pool ∧
      token = .ofRow table (row + 1)) ∨
    (pool.row? table key = none ∧ pool.count table < maxRow ∧
      after = ⟨pool.entries ++ [(table, key)]⟩ ∧
      token = .ofRow table (pool.count table + 1)) := by
  unfold TokenPool.token at given
  split at given
  · rename_i row found
    cases given
    exact .inl ⟨row, found, rfl, rfl⟩
  · rename_i missing
    split at given
    · rename_i room
      cases given
      exact .inr ⟨missing, room, rfl, rfl⟩
    · cases given

theorem extends_append (pool : TokenPool) (entries : List (UInt8 × String)) :
    pool.Extends ⟨pool.entries ++ entries⟩ := by
  intro table key row found
  rw [row?, keys_append, List.findIdx?_append]
  rw [row?] at found
  rw [found]
  rfl

/-- After a request the token stands for the key, and all other keys keep their rows. -/
theorem names_of_token
    (given : pool.token table key = .ok (after, token)) :
    after.Names token table key ∧ pool.Extends after := by
  rcases token_eq_ok_cases given with
    ⟨row, found, rfl, rfl⟩ | ⟨missing, -, rfl, rfl⟩
  · exact ⟨⟨row, found, rfl⟩, .refl _⟩
  · refine ⟨⟨pool.count table, ?_, rfl⟩, extends_append pool _⟩
    have alone : keys ⟨[(table, key)]⟩ table = [key] := by
      simp [keys]
    rw [row?] at missing
    rw [row?, keys_append, List.findIdx?_append, missing, alone]
    simp [count]

/-! ## Any number of requests -/

/-- The rows of a pool fit in tokens. -/
theorem Issued.count_le (issued : pool.Issued) (table : UInt8) :
    pool.count table ≤ maxRow := by
  induction issued with
  | empty =>
      exact Nat.zero_le _
  | @token pool after other key token _ given inductionHypothesis =>
      rcases token_eq_ok_cases given with
        ⟨row, -, rfl, -⟩ | ⟨-, room, rfl, -⟩
      · exact inductionHypothesis
      · rw [count, keys_append, List.length_append]
        by_cases same : other = table
        · subst same
          have alone : keys ⟨[(other, key)]⟩ other = [key] := by
            simp [keys]
          rw [alone]
          exact room
        · have elsewhere : keys ⟨[(other, key)]⟩ table = [] := by
            simp [keys, same]
          rw [elsewhere]
          exact inductionHypothesis

/-- A token stands for one key of one table only. -/
theorem Issued.names_unique
    (issued : pool.Issued) {otherTable : UInt8} {otherKey : String}
    (names : pool.Names token table key)
    (otherNames : pool.Names token otherTable otherKey) :
    table = otherTable ∧ key = otherKey := by
  obtain ⟨row, found, rfl⟩ := names
  obtain ⟨otherRow, otherFound, same⟩ := otherNames
  have fits : ∀ {table key row}, pool.row? table key = some row →
      row + 1 < Token.rowLimit := by
    intro table key row found
    have inside : row < pool.count table :=
      (List.findIdx?_eq_some_iff_getElem.mp found).1
    have room := issued.count_le table
    rw [maxRow] at room
    omega
  have sameTable := congrArg Token.table same
  have sameRow := congrArg Token.row same
  rw [Token.table_ofRow _ (fits found),
    Token.table_ofRow _ (fits otherFound)] at sameTable
  rw [Token.row_ofRow _ (fits found),
    Token.row_ofRow _ (fits otherFound)] at sameRow
  subst sameTable
  cases sameRow
  obtain ⟨_, here, -⟩ := List.findIdx?_eq_some_iff_getElem.mp found
  obtain ⟨_, there, -⟩ := List.findIdx?_eq_some_iff_getElem.mp otherFound
  exact ⟨rfl, (beq_iff_eq.mp here).symm.trans (beq_iff_eq.mp there)⟩

end TokenPool

end NullWeave
