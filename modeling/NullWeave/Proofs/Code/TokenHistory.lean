import NullWeave.Proofs.Code.Decoding

/-!
# All that a pool was asked for

A pool is asked for tokens one at a time, and by bodies that are encoded, which
ask for the tokens of their instructions in order until one of them fails.
Whatever a pool was asked for since it was empty, its answers are orderly: each
table numbers its keys from one in the order of first request, and says so every
time it is asked again.
-/

namespace NullWeave

/-! ## Requests -/

/-- A request for the token of a key in a table. -/
structure TokenRequest where
  table : UInt8
  key : String
deriving DecidableEq

namespace TokenRequest

/-- The request for a string. -/
def string (text : String) : TokenRequest := ⟨TokenPool.userString, text⟩

/-- The request for a type signature. -/
def signature (graph : Graph) (type : Signature) : TokenRequest :=
  ⟨TokenPool.sigTable type, graph.sigName type⟩

/-- The request for a field. -/
def field (graph : Graph) (field : FieldId) : TokenRequest :=
  ⟨TokenPool.memberRef, graph.fieldName field⟩

/-- The request for a method. -/
def method (graph : Graph) (method : MethodId) : TokenRequest :=
  ⟨TokenPool.memberRef, graph.methodName method⟩

end TokenRequest

/-- A request with the answer that it got. -/
abbrev AnsweredRequest := TokenRequest × Except CodeError Token

namespace TokenPool

/-- The answer to a request, and the pool after it; a request that is refused leaves the pool. -/
def ask (pool : TokenPool) (request : TokenRequest) : Except CodeError Token × TokenPool :=
  match pool.token request.table request.key with
  | .ok (after, token) => (.ok token, after)
  | .error failure => (.error failure, pool)

/-- Requests one after another, each with its answer, and the pool after them. -/
def askAll (pool : TokenPool) : List TokenRequest → List AnsweredRequest × TokenPool
  | [] => ([], pool)
  | request :: rest =>
      let (answer, after) := pool.ask request
      let (answers, last) := after.askAll rest
      ((request, answer) :: answers, last)

@[simp]
theorem askAll_nil (pool : TokenPool) : pool.askAll [] = ([], pool) := rfl

theorem askAll_append (pool : TokenPool) (front back : List TokenRequest) :
    pool.askAll (front ++ back) =
      ((pool.askAll front).1 ++ ((pool.askAll front).2.askAll back).1,
        ((pool.askAll front).2.askAll back).2) := by
  induction front generalizing pool with
  | nil =>
      rfl
  | cons request rest inductionHypothesis =>
      simp only [List.cons_append, askAll, inductionHypothesis]

theorem map_fst_askAll (pool : TokenPool) (requests : List TokenRequest) :
    (pool.askAll requests).1.map (·.1) = requests := by
  induction requests generalizing pool with
  | nil =>
      rfl
  | cons request rest inductionHypothesis =>
      simp only [askAll, List.map_cons, inductionHypothesis]

end TokenPool

/-- The request that encoding an operation makes, if it makes one. -/
def Operation.tokenRequest? (graph : Graph) : Operation → Option TokenRequest
  | .ldStr text => some (.string text)
  | .ldObj type | .box type => some (.signature graph type)
  | .ldFld field | .ldFldA field | .stFld field => some (.field graph field)
  | .call method | .callVirt method | .newObj method => some (.method graph method)
  | _ => none

namespace MethodBody

/-- The requests of instructions, in order. -/
def tokenRequests (graph : Graph) (instructions : List Instruction) : List TokenRequest :=
  instructions.filterMap (·.operation.tokenRequest? graph)

theorem tokenRequests_cons (graph : Graph) (instruction : Instruction)
    (rest : List Instruction) :
    tokenRequests graph (instruction :: rest) =
      (instruction.operation.tokenRequest? graph).toList ++ tokenRequests graph rest := by
  unfold tokenRequests
  cases asks : instruction.operation.tokenRequest? graph with
  | none =>
      exact List.filterMap_cons_none asks
  | some request =>
      exact List.filterMap_cons_some asks

/-- The requests that encoding instructions makes; it ends where encoding one of them fails. -/
def requestsFrom (graph : Graph) (placed : List (InstrId × Nat)) (start : Nat)
    (pool : TokenPool) : List Instruction → List TokenRequest
  | [] => []
  | instruction :: rest =>
      let finish := start + instruction.width
      (instruction.operation.tokenRequest? graph).toList ++
        match (instruction.operation.encode graph instruction.id
          (displacementFrom placed finish)).run pool with
        | (.ok _, after) => requestsFrom graph placed finish after rest
        | (.error _, _) => []

/-- The requests that encoding a body makes; there are none before its depths are checked. -/
def requests (graph : Graph) (body : MethodBody) (returnsValue : Bool) (pool : TokenPool) :
    List TokenRequest :=
  match body.checkDepths graph returnsValue with
  | .error _ => []
  | .ok maxStack =>
      if 65535 < maxStack then []
      else
        let placed := (body.instructions.map (·.id)).zip (offsets body.instructions)
        requestsFrom graph placed 0 pool body.instructions

end MethodBody

/-- What a pool is used for. -/
inductive TokenUse where
  /-- A token is asked for. -/
  | single (request : TokenRequest)
  /-- A body is encoded, as far as it can be. -/
  | encode (graph : Graph) (body : MethodBody) (returnsValue : Bool)

namespace TokenUse

/-- The pool after a use. -/
def after (pool : TokenPool) : TokenUse → TokenPool
  | .single request => (pool.ask request).2
  | .encode graph body returnsValue => ((body.encode graph returnsValue).run pool).2

/-- The requests that a use makes. -/
def requests (pool : TokenPool) : TokenUse → List TokenRequest
  | .single request => [request]
  | .encode graph body returnsValue => body.requests graph returnsValue pool

/-- The requests that uses make one after another, each with its answer. -/
def history (pool : TokenPool) : List TokenUse → List AnsweredRequest
  | [] => []
  | use :: rest => (pool.askAll (use.requests pool)).1 ++ history (use.after pool) rest

end TokenUse

/-! ## What encoding asks for -/

section Encoding

variable {graph : Graph} {pool : TokenPool} {operation : Operation}

/-- An operation that refers to something is written as an opcode and the token it is given. -/
theorem Operation.run_encode_of_tokenRequest? {request : TokenRequest}
    (asks : operation.tokenRequest? graph = some request) :
    ∃ opcode, ∀ id displacement pool,
      (operation.encode graph id displacement).run pool =
        ((pool.ask request).1.map fun token => opcode :: token.bytes,
          (pool.ask request).2) := by
  have withToken (opcode : UInt8) (pool : TokenPool) :
      (Encoder.withToken opcode request.table request.key).run pool =
        ((pool.ask request).1.map fun token => opcode :: token.bytes,
          (pool.ask request).2) := by
    rw [run_withToken, TokenPool.ask]
    cases pool.token request.table request.key <;> rfl
  cases operation with
  | ldStr | ldObj | box | ldFld | ldFldA | stFld | call | callVirt | newObj =>
      cases asks
      exact ⟨_, fun _ _ => withToken _⟩
  | _ =>
      cases asks

/-- An operation that refers to nothing leaves the pool as it is. -/
theorem Operation.pool_of_tokenRequest?_eq_none
    (asks : operation.tokenRequest? graph = none) (id : InstrId)
    (displacement : InstrId → Except CodeError Int) (pool : TokenPool) :
    ((operation.encode graph id displacement).run pool).2 = pool := by
  cases operation with
  | ldStr | ldObj | box | ldFld | ldFldA | stFld | call | callVirt | newObj =>
      cases asks
  | branch kind form target =>
      rw [run_encode_branch]
  | switch targets =>
      rw [run_encode_switch]
  | _ =>
      rfl

/-- The pool after an operation is the one after its request. -/
theorem Operation.pool_of_encode (graph : Graph) (operation : Operation) (id : InstrId)
    (displacement : InstrId → Except CodeError Int) (pool : TokenPool) :
    ((operation.encode graph id displacement).run pool).2 =
      (pool.askAll (operation.tokenRequest? graph).toList).2 := by
  cases asks : operation.tokenRequest? graph with
  | none =>
      exact pool_of_tokenRequest?_eq_none asks id displacement pool
  | some request =>
      obtain ⟨opcode, runs⟩ := run_encode_of_tokenRequest? asks
      rw [runs]
      rfl

namespace MethodBody

theorem pool_of_encodeFrom (graph : Graph) (placed : List (InstrId × Nat)) (start : Nat)
    (instructions : List Instruction) (pool : TokenPool) :
    ((encodeFrom graph placed start instructions).run pool).2 =
      (pool.askAll (requestsFrom graph placed start pool instructions)).2 := by
  induction instructions generalizing start pool with
  | nil =>
      rfl
  | cons instruction rest inductionHypothesis =>
      have here := instruction.operation.pool_of_encode graph instruction.id
        (displacementFrom placed (start + instruction.width)) pool
      rw [encodeFrom, run_bind, requestsFrom, TokenPool.askAll_append, ← here]
      rcases (instruction.operation.encode graph instruction.id
        (displacementFrom placed (start + instruction.width))).run pool with
        ⟨failure | bytes, after⟩
      · rfl
      · dsimp only
        rw [run_bind, ← inductionHypothesis]
        rcases (encodeFrom graph placed (start + instruction.width) rest).run after with
          ⟨failure | others, last⟩ <;> rfl

/-- Instructions that are encoded to the end make all of their requests. -/
theorem requestsFrom_of_encodeFrom {placed : List (InstrId × Nat)} {start : Nat}
    {instructions : List Instruction} {code : List UInt8} {final : TokenPool}
    (ran : (encodeFrom graph placed start instructions).run pool = (.ok code, final)) :
    requestsFrom graph placed start pool instructions = tokenRequests graph instructions := by
  induction instructions generalizing start pool code with
  | nil =>
      rfl
  | cons instruction rest inductionHypothesis =>
      obtain ⟨bytes, between, here, later⟩ := run_bind_eq_ok ran
      obtain ⟨others, last, there, written⟩ := run_bind_eq_ok later
      cases written
      rw [requestsFrom, here, tokenRequests_cons]
      dsimp only
      rw [inductionHypothesis there]

/-- Instructions make their requests in order, up to where encoding ends. -/
theorem requestsFrom_isPrefix (graph : Graph) (placed : List (InstrId × Nat)) (start : Nat)
    (instructions : List Instruction) (pool : TokenPool) :
    requestsFrom graph placed start pool instructions <+: tokenRequests graph instructions := by
  induction instructions generalizing start pool with
  | nil =>
      exact List.prefix_rfl
  | cons instruction rest inductionHypothesis =>
      rw [tokenRequests_cons, requestsFrom]
      refine (List.prefix_append_right_inj _).mpr ?_
      split
      · exact inductionHypothesis _ _
      · exact List.nil_prefix

/-- Encoding a body either ends before it asks for anything or encodes its instructions. -/
theorem run_encode_cases (graph : Graph) (body : MethodBody) (returnsValue : Bool)
    (pool : TokenPool) :
    ((∃ failure, (body.encode graph returnsValue).run pool = (.error failure, pool)) ∧
      body.requests graph returnsValue pool = []) ∨
    ∃ placed maxStack,
      body.requests graph returnsValue pool =
        requestsFrom graph placed 0 pool body.instructions ∧
      (body.encode graph returnsValue).run pool =
        (((encodeFrom graph placed 0 body.instructions).run pool).1.map fun code =>
          { code, maxStack, initLocals := body.initLocals, instructionOffsets := placed },
        ((encodeFrom graph placed 0 body.instructions).run pool).2) := by
  rw [encode, run_lift_bind, requests]
  cases body.checkDepths graph returnsValue with
  | error failure =>
      exact .inl ⟨⟨failure, rfl⟩, rfl⟩
  | ok maxStack =>
      dsimp only
      by_cases deep : 65535 < maxStack
      · rw [if_pos deep, if_pos deep]
        exact .inl ⟨⟨_, rfl⟩, rfl⟩
      · rw [if_neg deep, if_neg deep]
        refine .inr ⟨_, maxStack, rfl, ?_⟩
        rw [run_bind]
        rcases (encodeFrom graph _ 0 body.instructions).run pool with
          ⟨failure | code, after⟩ <;> rfl

/-- Does encoding a body use a pool for requests of its instructions, in order, and nothing else? -/
structure AsksInOrder (graph : Graph) (body : MethodBody) (returnsValue : Bool)
    (pool : TokenPool) : Prop where
  left : ((body.encode graph returnsValue).run pool).2 =
    (pool.askAll (body.requests graph returnsValue pool)).2
  /-- Encoding that fails may have made some of the requests. -/
  inOrder : body.requests graph returnsValue pool <+: tokenRequests graph body.instructions
  complete : ∀ encoded, ((body.encode graph returnsValue).run pool).1 = .ok encoded →
    body.requests graph returnsValue pool = tokenRequests graph body.instructions

theorem asksInOrder (graph : Graph) (body : MethodBody) (returnsValue : Bool)
    (pool : TokenPool) : body.AsksInOrder graph returnsValue pool := by
  rcases body.run_encode_cases graph returnsValue pool with
    ⟨⟨failure, ran⟩, silent⟩ | ⟨placed, maxStack, asked, ran⟩
  · refine ⟨?_, ?_, fun encoded went => ?_⟩
    · rw [ran, silent]
      rfl
    · rw [silent]
      exact List.nil_prefix
    · rw [ran] at went
      cases went
  · refine ⟨?_, ?_, fun encoded went => ?_⟩
    · rw [ran, asked, ← pool_of_encodeFrom]
    · rw [asked]
      exact requestsFrom_isPrefix _ _ _ _ _
    · rw [ran] at went
      rw [asked]
      cases coded : ((encodeFrom graph placed 0 body.instructions).run pool).1 with
      | error failure =>
          rw [coded] at went
          cases went
      | ok code =>
          exact requestsFrom_of_encodeFrom (Prod.ext coded rfl)

end MethodBody

/-- The pool after a use is the one after its requests. -/
theorem TokenUse.after_eq (pool : TokenPool) (use : TokenUse) :
    use.after pool = (pool.askAll (use.requests pool)).2 := by
  cases use with
  | single request =>
      rfl
  | encode graph body returnsValue =>
      exact (body.asksInOrder graph returnsValue pool).left

end Encoding

/-! ## Orderly answers -/

/-- The keys of a table with the rows they were given, in the order of the requests. -/
def rowsGiven (history : List AnsweredRequest) (table : UInt8) : List (String × Nat) :=
  history.filterMap fun entry =>
    if entry.1.table = table then
      entry.2.toOption.map fun token => (entry.1.key, token.row)
    else
      none

/-- Are the answers to requests, with the pool after them, those of tables that number their keys? -/
structure OrderlyHistory (history : List AnsweredRequest) (pool : TokenPool) : Prop where
  /-- The requests were made one after another, of a pool that was empty. -/
  asked : TokenPool.askAll {} (history.map (·.1)) = (history, pool)
  /-- The keys of a table, each taken where it comes first, have the rows from one on. -/
  dense : ∀ table, (rowsGiven history table).eraseDups = (pool.keys table).zipIdx 1
  /-- A request that got a token gets the same one whenever it is made again. -/
  stable : history.Pairwise fun earlier later =>
    later.1 = earlier.1 → ∀ token, earlier.2 = .ok token → later.2 = .ok token
  /-- A token says the table and the row, which never spills into the table. -/
  exact : ∀ request token, (request, .ok token) ∈ history →
    token.table = request.table ∧ 1 ≤ token.row ∧ token.row ≤ pool.count request.table ∧
      token.value.toNat = request.table.toNat * Token.rowLimit + token.row
  /-- Requests get the same token exactly if table and key are equal. -/
  unambiguous : ∀ request other token otherToken, (request, .ok token) ∈ history →
    (other, .ok otherToken) ∈ history → (token = otherToken ↔ request = other)
  /-- A request is refused only by a table that has given out all rows, and changes nothing. -/
  refused : ∀ front request failure back, history = front ++ (request, .error failure) :: back →
    failure = .tokenOverflow request.table ∧
      (TokenPool.askAll {} (front.map (·.1))).2.count request.table = maxRow ∧
      (TokenPool.askAll {} (front.map (·.1) ++ [request])).2 =
        (TokenPool.askAll {} (front.map (·.1))).2

namespace TokenPool

variable {pool : TokenPool}

theorem keys_singleton_self (table : UInt8) (key : String) :
    keys ⟨[(table, key)]⟩ table = [key] := by
  simp [keys]

theorem keys_singleton_of_ne {table other : UInt8} (apart : table ≠ other) (key : String) :
    keys ⟨[(table, key)]⟩ other = [] := by
  simp [keys, apart]

/-- A request finds its key, puts it behind the other ones of its table, or finds no room. -/
theorem ask_cases (pool : TokenPool) (request : TokenRequest) :
    (∃ row, pool.row? request.table request.key = some row ∧
      pool.ask request = (.ok (.ofRow request.table (row + 1)), pool)) ∨
    (pool.row? request.table request.key = none ∧ pool.count request.table < maxRow ∧
      pool.ask request = (.ok (.ofRow request.table (pool.count request.table + 1)),
        ⟨pool.entries ++ [(request.table, request.key)]⟩)) ∨
    (pool.row? request.table request.key = none ∧ maxRow ≤ pool.count request.table ∧
      pool.ask request = (.error (.tokenOverflow request.table), pool)) := by
  cases found : pool.row? request.table request.key with
  | some row =>
      rw [row?] at found
      refine .inl ⟨row, rfl, ?_⟩
      rw [ask, token, found]
  | none =>
      rw [row?] at found
      by_cases room : pool.count request.table < maxRow
      · refine .inr (.inl ⟨rfl, room, ?_⟩)
        rw [ask, token, found]
        dsimp only
        rw [if_pos room]
      · refine .inr (.inr ⟨rfl, Nat.le_of_not_lt room, ?_⟩)
        rw [ask, token, found]
        dsimp only
        rw [if_neg room]

theorem row?_lt_count {table : UInt8} {key : String} {row : Nat}
    (found : pool.row? table key = some row) : row < pool.count table :=
  (List.findIdx?_eq_some_iff_getElem.mp found).1

theorem getElem?_keys_of_row? {table : UInt8} {key : String} {row : Nat}
    (found : pool.row? table key = some row) : (pool.keys table)[row]? = some key := by
  obtain ⟨inside, same, -⟩ := List.findIdx?_eq_some_iff_getElem.mp found
  rw [List.getElem?_eq_getElem inside, beq_iff_eq.mp same]

theorem not_mem_keys_of_row? {table : UInt8} {key : String}
    (missing : pool.row? table key = none) : key ∉ pool.keys table := by
  intro member
  have apart := List.findIdx?_eq_none_iff.mp missing key member
  rw [beq_self_eq_true] at apart
  cases apart

theorem Issued.ask (issued : pool.Issued) (request : TokenRequest) :
    (pool.ask request).2.Issued := by
  unfold TokenPool.ask
  split
  · rename_i given
    exact issued.token given
  · exact issued

theorem extends_ask (pool : TokenPool) (request : TokenRequest) :
    pool.Extends (pool.ask request).2 := by
  unfold ask
  split
  · rename_i given
    exact (names_of_token given).2
  · exact .refl pool

theorem names_of_ask {request : TokenRequest} {token : Token}
    (given : (pool.ask request).1 = .ok token) :
    (pool.ask request).2.Names token request.table request.key := by
  unfold ask at given ⊢
  cases asked : pool.token request.table request.key with
  | error failure =>
      rw [asked] at given
      cases given
  | ok result =>
      rw [asked] at given
      cases given
      exact (names_of_token asked).1

/-- The answer to a request between other ones is that of the pool after those before it. -/
theorem ask_of_askAll {front back : List AnsweredRequest} {request : TokenRequest}
    {answer : Except CodeError Token} {final : TokenPool}
    (asked : pool.askAll ((front ++ (request, answer) :: back).map (·.1)) =
      (front ++ (request, answer) :: back, final)) :
    ((pool.askAll (front.map (·.1))).2.ask request).1 = answer := by
  have answers := congrArg Prod.fst asked
  rw [List.map_append, askAll_append] at answers
  have length : (pool.askAll (front.map (·.1))).1.length = front.length := by
    have same := congrArg List.length (pool.map_fst_askAll (front.map (·.1)))
    simpa using same
  obtain ⟨-, behind⟩ := List.append_inj answers length
  exact (Prod.mk.inj (List.cons.inj behind).1).2

/-- A request is refused only by a table that is full, and changes nothing. -/
theorem Issued.full_of_ask_eq_error (issued : pool.Issued) {request : TokenRequest}
    {failure : CodeError} (refused : (pool.ask request).1 = .error failure) :
    failure = .tokenOverflow request.table ∧ pool.count request.table = maxRow ∧
      (pool.ask request).2 = pool := by
  rcases pool.ask_cases request with ⟨_, -, asked⟩ | ⟨-, -, asked⟩ | ⟨-, full, asked⟩
  · rw [asked] at refused
    cases refused
  · rw [asked] at refused
    cases refused
  · rw [asked] at refused ⊢
    cases refused
    exact ⟨rfl, Nat.le_antisymm (issued.count_le _) full, rfl⟩

theorem Issued.askAll (issued : pool.Issued) (requests : List TokenRequest) :
    (pool.askAll requests).2.Issued := by
  induction requests generalizing pool with
  | nil =>
      exact issued
  | cons request rest inductionHypothesis =>
      exact inductionHypothesis (issued.ask request)

/-- The token for a key says its row, which is one of those given out. -/
theorem Issued.exact_of_names (issued : pool.Issued) {token : Token} {table : UInt8}
    {key : String} (names : pool.Names token table key) :
    token.table = table ∧ 1 ≤ token.row ∧ token.row ≤ pool.count table ∧
      token.value.toNat = table.toNat * Token.rowLimit + token.row := by
  obtain ⟨row, found, rfl⟩ := names
  have inside := row?_lt_count found
  have room := issued.count_le table
  have fits : row + 1 < Token.rowLimit := by
    rw [maxRow] at room
    omega
  have small : table.toNat < 256 := table.toNat_lt
  rw [Token.table_ofRow _ fits, Token.row_ofRow _ fits]
  refine ⟨rfl, by omega, by omega, ?_⟩
  simp only [Token.rowLimit] at fits
  simp only [Token.ofRow, Token.rowLimit, UInt32.toNat_ofNat']
  omega

end TokenPool

theorem rowsGiven_append (front back : List AnsweredRequest) (table : UInt8) :
    rowsGiven (front ++ back) table = rowsGiven front table ++ rowsGiven back table :=
  List.filterMap_append

theorem rowsGiven_ok (request : TokenRequest) (token : Token) :
    rowsGiven [(request, .ok token)] request.table = [(request.key, token.row)] := by
  simp [rowsGiven, Except.toOption]

theorem rowsGiven_error (request : TokenRequest) (failure : CodeError) (table : UInt8) :
    rowsGiven [(request, .error failure)] table = [] := by
  simp [rowsGiven, Except.toOption]

theorem rowsGiven_of_ne {request : TokenRequest} {table : UInt8} (apart : request.table ≠ table)
    (answer : Except CodeError Token) : rowsGiven [(request, answer)] table = [] := by
  simp [rowsGiven, apart]

/-- What is known of requests and the pool after them. -/
structure Records (history : List AnsweredRequest) (pool : TokenPool) : Prop where
  issued : pool.Issued
  names : ∀ request token, (request, .ok token) ∈ history →
    pool.Names token request.table request.key
  dense : ∀ table, (rowsGiven history table).eraseDups = (pool.keys table).zipIdx 1
  stable : history.Pairwise fun earlier later =>
    later.1 = earlier.1 → ∀ token, earlier.2 = .ok token → later.2 = .ok token

namespace Records

variable {history : List AnsweredRequest} {pool : TokenPool}

theorem empty : Records [] {} where
  issued := .empty
  names _ _ := nofun
  dense _ := rfl
  stable := .nil

/-- A key was given a row exactly if it stands there among the keys. -/
theorem mem_rowsGiven_iff (records : Records history pool) {table : UInt8} {key : String}
    {row : Nat} :
    (key, row) ∈ rowsGiven history table ↔
      1 ≤ row ∧ (pool.keys table)[row - 1]? = some key := by
  rw [← List.mem_eraseDups, records.dense, List.mk_mem_zipIdx_iff_le_and_getElem?_sub]

/-- One more request numbers at most one more key. -/
theorem dense_ask (records : Records history pool) (request : TokenRequest) (table : UInt8) :
    (rowsGiven (history ++ [(request, (pool.ask request).1)]) table).eraseDups =
      ((pool.ask request).2.keys table).zipIdx 1 := by
  have room := records.issued.count_le request.table
  have limit : maxRow + 1 = Token.rowLimit := rfl
  rw [rowsGiven_append, List.eraseDups_append, records.dense]
  rcases pool.ask_cases request with ⟨row, found, asked⟩ | ⟨missing, below, asked⟩ |
    ⟨-, -, asked⟩
  · -- The key has its row from before.
    rw [asked]
    by_cases here : request.table = table
    · subst here
      have inside := TokenPool.row?_lt_count found
      have known : (request.key, row + 1) ∈ rowsGiven history request.table :=
        records.mem_rowsGiven_iff.mpr
          ⟨Nat.le_add_left 1 row, TokenPool.getElem?_keys_of_row? found⟩
      rw [rowsGiven_ok, Token.row_ofRow _ (by omega)]
      simp [List.removeAll, known]
    · rw [rowsGiven_of_ne here]
      simp [List.removeAll]
  · -- The key comes behind the other ones of its table.
    rw [asked]
    by_cases here : request.table = table
    · subst here
      have new : (request.key, pool.count request.table + 1) ∉
          rowsGiven history request.table := by
        intro member
        have inside := (records.mem_rowsGiven_iff.mp member).2
        exact absurd (List.mem_of_getElem? inside) (TokenPool.not_mem_keys_of_row? missing)
      rw [rowsGiven_ok, Token.row_ofRow _ (by omega), TokenPool.keys_append,
        TokenPool.keys_singleton_self, List.zipIdx_append]
      have kept : [(request.key, pool.count request.table + 1)].removeAll
          (rowsGiven history request.table) =
            [(request.key, pool.count request.table + 1)] := by
        simp [List.removeAll, new]
      rw [kept, List.eraseDups_cons, List.filter_nil, List.eraseDups_nil, TokenPool.count,
        Nat.add_comm]
      rfl
    · rw [rowsGiven_of_ne here, TokenPool.keys_append, TokenPool.keys_singleton_of_ne here]
      simp [List.removeAll]
  · rw [asked, rowsGiven_error]
    simp [List.removeAll]

/-- A request for a key that has a token is answered with that token. -/
theorem ask_of_mem (records : Records history pool) {request : TokenRequest} {token : Token}
    (member : (request, .ok token) ∈ history) : (pool.ask request).1 = .ok token := by
  obtain ⟨row, found, rfl⟩ := records.names request token member
  rcases pool.ask_cases request with ⟨other, foundToo, asked⟩ | ⟨missing, -⟩ | ⟨missing, -⟩
  · rw [asked, Option.some.inj (found.symm.trans foundToo)]
  · rw [missing] at found
    cases found
  · rw [missing] at found
    cases found

/-- One more request, with its answer, leaves all records as they are. -/
theorem ask (records : Records history pool) (request : TokenRequest) :
    Records (history ++ [(request, (pool.ask request).1)]) (pool.ask request).2 where
  issued := records.issued.ask request
  names other token member := by
    rcases List.mem_append.mp member with earlier | now
    · exact (records.names other token earlier).mono (pool.extends_ask request)
    · obtain ⟨rfl, answer⟩ := Prod.mk.inj (List.mem_singleton.mp now)
      exact TokenPool.names_of_ask answer.symm
  dense := records.dense_ask request
  stable := by
    refine List.pairwise_append.mpr ⟨records.stable, List.pairwise_singleton _ _, ?_⟩
    rintro ⟨earlier, answer⟩ among later now
    cases List.mem_singleton.mp now
    rintro rfl token rfl
    exact records.ask_of_mem among

theorem askAll (records : Records history pool) (requests : List TokenRequest) :
    Records (history ++ (pool.askAll requests).1) (pool.askAll requests).2 := by
  induction requests generalizing history pool with
  | nil =>
      simpa using records
  | cons request rest inductionHypothesis =>
      have later := inductionHypothesis (records.ask request)
      rw [List.append_assoc] at later
      exact later

/-- What is known of requests makes their answers orderly. -/
theorem orderly (records : Records history pool)
    (asked : TokenPool.askAll {} (history.map (·.1)) = (history, pool)) :
    OrderlyHistory history pool where
  asked := asked
  dense := records.dense
  stable := records.stable
  exact request token member := records.issued.exact_of_names (records.names request token member)
  unambiguous request other token otherToken member memberToo := by
    refine ⟨?_, ?_⟩
    · rintro rfl
      obtain ⟨table, key⟩ := records.issued.names_unique (records.names request token member)
        (records.names other token memberToo)
      cases request
      cases other
      exact congr (congrArg _ table) key
    · rintro rfl
      have here := records.ask_of_mem member
      rw [records.ask_of_mem memberToo] at here
      exact (Except.ok.inj here).symm
  refused front request failure back whole := by
    rw [whole] at asked
    obtain ⟨overflow, full, still⟩ :=
      (TokenPool.Issued.empty.askAll (front.map (·.1))).full_of_ask_eq_error
        (TokenPool.ask_of_askAll asked)
    refine ⟨overflow, full, ?_⟩
    rw [TokenPool.askAll_append]
    exact still

end Records

/-! ## Any number of uses -/

/-- The requests of uses are made one after another, and nothing else changes the pool. -/
theorem TokenUse.askAll_history (pool : TokenPool) (uses : List TokenUse) :
    pool.askAll ((history pool uses).map (·.1)) =
      (history pool uses, uses.foldl TokenUse.after pool) := by
  induction uses generalizing pool with
  | nil =>
      rfl
  | cons use rest inductionHypothesis =>
      rw [history, List.map_append, TokenPool.map_fst_askAll, TokenPool.askAll_append,
        List.foldl_cons, after_eq, inductionHypothesis]

/-- Whatever an empty pool is used for, its answers are orderly. -/
theorem TokenUse.orderly_history (uses : List TokenUse) :
    OrderlyHistory (history {} uses) (uses.foldl TokenUse.after {}) := by
  have records := Records.empty.askAll ((history {} uses).map (·.1))
  rw [askAll_history, List.nil_append] at records
  exact records.orderly (askAll_history {} uses)

end NullWeave
