import RelationalAvro.Json.Value

/-!
# Reading documents

The value of a document is built by a machine that reads one token at a time and keeps the
containers still open on a stack, so the depth of a document is not bounded by anything.
`Value.ofTokens?_tokens` states that the tokens of a value denote that value.
-/

namespace RelationalAvro.Json

/-- A container still open, with what it holds so far in reverse; an object also has the key whose
value comes next. -/
inductive Frame where
  | items (before : List Value)
  | members (before : List (Option String × Value)) (key : Option String)
  deriving Repr

/-- What the machine expects next, and the containers still open, innermost first. -/
inductive Progress where
  /-- A value must come. -/
  | awaitValue (frames : List Frame)
  /-- An array has just been opened: an item or the end of the array must come. -/
  | awaitFirstItem (frames : List Frame)
  /-- An object has just been opened: a key or the end of the object must come. -/
  | awaitFirstKey (frames : List Frame)
  /-- A key must come, after the members given. -/
  | awaitKey (before : List (Option String × Value)) (frames : List Frame)
  /-- The colon after a key must come. -/
  | awaitColon (before : List (Option String × Value)) (key : Option String) (frames : List Frame)
  /-- A value is complete. -/
  | complete (value : Value) (frames : List Frame)
  deriving Repr

namespace Progress

/-- What the first token of a value does. -/
def start (frames : List Frame) : Token → Option Progress
  | .null => some (.complete .null frames)
  | .bool b => some (.complete (.bool b) frames)
  | .number word => some (.complete (.number word) frames)
  | .quoted text => some (.complete (.string text) frames)
  | .openArray => some (.awaitFirstItem frames)
  | .openObject => some (.awaitFirstKey frames)
  | _ => none

/-- What a token does after the value of an innermost container is complete. -/
def continue? (value : Value) : List Frame → Token → Option Progress
  | .items before :: frames, .comma => some (.awaitValue (.items (value :: before) :: frames))
  | .items before :: frames, .closeArray =>
    some (.complete (.array (value :: before).reverse) frames)
  | .members before key :: frames, .comma => some (.awaitKey ((key, value) :: before) frames)
  | .members before key :: frames, .closeObject =>
    some (.complete (.object ((key, value) :: before).reverse) frames)
  | _, _ => none

/-- One token of a document. -/
def step (progress : Progress) (token : Token) : Option Progress :=
  match progress with
  | .awaitValue frames => start frames token
  | .awaitFirstItem frames =>
    if token = .closeArray then some (.complete (.array []) frames)
    else start (.items [] :: frames) token
  | .awaitFirstKey frames =>
    match token with
    | .closeObject => some (.complete (.object []) frames)
    | .quoted key => some (.awaitColon [] key frames)
    | _ => none
  | .awaitKey before frames =>
    match token with
    | .quoted key => some (.awaitColon before key frames)
    | _ => none
  | .awaitColon before key frames =>
    if token = .colon then some (.awaitValue (.members before key :: frames)) else none
  | .complete value frames => continue? value frames token

/-- The value of a document that ends here. -/
def finish? : Progress → Option Value
  | .complete value [] => some value
  | _ => none

end Progress

/-- The value that a sequence of tokens denotes. -/
def Value.ofTokens? (tokens : List Token) : Option Value :=
  (tokens.foldlM Progress.step (.awaitValue [])).bind Progress.finish?

/-- The value that a text denotes, if it is a document. -/
def Value.parse? (text : List Char) : Option Value :=
  (Token.scan? text).bind Value.ofTokens?

/-! ## Reading what is written

Each theorem below runs the machine over the tokens of a part of a value and leaves the tokens that
follow to be read. Values contain lists of values, so the theorems are proved together.
-/

namespace Progress

private theorem foldlM_cons (progress : Progress) (token : Token) (rest : List Token) :
    (token :: rest).foldlM step progress = (step progress token).bind (rest.foldlM step) := rfl

mutual

/-- The tokens of a value, read where a value must come, complete that value. -/
theorem foldlM_tokens (value : Value) (frames : List Frame) (rest : List Token) :
    (value.tokens ++ rest).foldlM step (.awaitValue frames) =
      rest.foldlM step (.complete value frames) := by
  cases value with
  | null => rfl
  | bool b => rfl
  | number word => rfl
  | string text => rfl
  | array items =>
    cases items with
    | nil => rfl
    | cons item items =>
      simp only [Value.tokens, Value.itemTokens, List.cons_append, List.append_assoc,
        List.nil_append]
      rw [foldlM_cons, step, start, Option.bind_some, foldlM_firstItem, foldlM_furtherItems]
      rfl
  | object members =>
    cases members with
    | nil => rfl
    | cons member members =>
      obtain ⟨key, value⟩ := member
      simp only [Value.tokens, Value.memberTokens, List.cons_append, List.append_assoc,
        List.nil_append]
      -- the first key and its colon have been read
      change (value.tokens ++ _).foldlM step (.awaitValue (.members [] key :: frames)) = _
      rw [foldlM_tokens, foldlM_furtherMembers]
      rfl

/-- Right after the opening bracket, a value is an item. -/
theorem foldlM_firstItem (value : Value) (frames : List Frame) (rest : List Token) :
    (value.tokens ++ rest).foldlM step (.awaitFirstItem frames) =
      rest.foldlM step (.complete value (.items [] :: frames)) := by
  rw [← foldlM_tokens value (.items [] :: frames) rest]
  cases value <;> rfl

/-- The items that follow an item are added to the array. -/
theorem foldlM_furtherItems (items : List Value) (value : Value) (before : List Value)
    (frames : List Frame) (rest : List Token) :
    (Value.furtherItemTokens items ++ .closeArray :: rest).foldlM step
        (.complete value (.items before :: frames)) =
      rest.foldlM step (.complete (.array ((value :: before).reverse ++ items)) frames) := by
  cases items with
  | nil => simp only [List.append_nil]; rfl
  | cons item items =>
    simp only [Value.furtherItemTokens, List.cons_append, List.append_assoc]
    change (item.tokens ++ _).foldlM step (.awaitValue (.items (value :: before) :: frames)) = _
    rw [foldlM_tokens, foldlM_furtherItems]
    simp

/-- The members that follow a member are added to the object. -/
theorem foldlM_furtherMembers (members : List (Option String × Value)) (value : Value)
    (before : List (Option String × Value)) (key : Option String)
    (frames : List Frame) (rest : List Token) :
    (Value.furtherMemberTokens members ++ .closeObject :: rest).foldlM step
        (.complete value (.members before key :: frames)) =
      rest.foldlM step
        (.complete (.object (((key, value) :: before).reverse ++ members)) frames) := by
  cases members with
  | nil => simp only [List.append_nil]; rfl
  | cons member members =>
    obtain ⟨nextKey, nextValue⟩ := member
    simp only [Value.furtherMemberTokens, List.cons_append, List.append_assoc]
    change (nextValue.tokens ++ _).foldlM step
      (.awaitValue (.members ((key, value) :: before) nextKey :: frames)) = _
    rw [foldlM_tokens, foldlM_furtherMembers]
    simp

end

end Progress

/-- The tokens of a value denote that value. -/
@[simp] theorem Value.ofTokens?_tokens (value : Value) :
    Value.ofTokens? value.tokens = some value := by
  have h := Progress.foldlM_tokens value [] []
  rw [List.append_nil] at h
  rw [Value.ofTokens?, h]
  rfl

end RelationalAvro.Json
