import RelationalAvro.EnumPool.Family
import RelationalAvro.Proofs.EnumPool.History

/-!
# What the pools of a family answer

The pools of a family share their definitions and differ in their histories: the names that have
been referred to in each. A copy starts from the history of its parent, and from then on the two
have nothing more to do with each other. `recorded` says what a request adds to the histories,
without any pool, and `IsAnswer` what it should be answered by the histories before it.

One request keeps the family in step with the histories (`Keeps.answer`), and so does a run
(`Keeps.answers`). A request to one pool changes no other (`AgreeApart.answers_eq`). The main
statement is `ofDefinitions_answers`.
-/

namespace RelationalAvro.EnumPool

open Avro (AvroType)

/-! ## Histories -/

/-- The place that the request goes to. -/
def Request.place : Request → Nat
  | .resolve place _ => place
  | .isUsed place _ => place
  | .copy place => place

/-- The histories after a request: a reference adds its name to one, and a copy adds one. -/
def recorded (histories : List (List String)) : Request → List (List String)
  | .resolve place name => histories.modify place (· ++ [name])
  | .isUsed _ _ => histories
  | .copy place => histories ++ [histories[place]?.getD []]

/-- The histories after requests to a family that began with one fresh pool. -/
def historiesAfter (requests : List Request) : List (List String) :=
  requests.foldl recorded [[]]

/-- Each request goes to a pool that is there by then. -/
def ArePresent (requests : List Request) : Prop :=
  ∀ i request, requests[i]? = some request →
    request.place < (historiesAfter (requests.take i)).length

variable {definitions : List (String × AvroType)} {histories : List (List String)}
  {family : List EnumPool} {request : Request}

/-- What a reference to the name should become after a history: nothing if no definition has the
name, the definition if the name is new to the history, and the bare name if not. -/
structure IsReference (definitions : List (String × AvroType)) (history : List String)
    (name : String) (type : Option AvroType) : Prop where
  eq_none_iff : type = none ↔ name ∉ definitions.map Prod.fst
  eq_some : ∀ definition, (name, definition) ∈ definitions →
    type = some (if name ∈ history then .named name else definition)
  /-- Unless the definition is itself the bare name, the answer tells whether the name was new. -/
  tells : ∀ definition, (name, definition) ∈ definitions → definition ≠ .named name →
    (type = some definition ↔ name ∉ history) ∧ (type = some (.named name) ↔ name ∈ history)

/-- The answer to a request is right by the histories before it. -/
inductive IsAnswer (definitions : List (String × AvroType)) (histories : List (List String)) :
    Request → Answer → Prop
  | resolved {place : Nat} {name : String} {history : List String} {type : Option AvroType}
      (hhistory : histories[place]? = some history)
      (htype : IsReference definitions history name type) :
      IsAnswer definitions histories (.resolve place name) (.resolved type)
  | used {place : Nat} {name : String} {history : List String} {answer : Bool}
      (hhistory : histories[place]? = some history)
      (hanswer : answer = true ↔ name ∈ history ∧ name ∈ definitions.map Prod.fst) :
      IsAnswer definitions histories (.isUsed place name) (.used answer)
  | copied {place : Nat} :
      IsAnswer definitions histories (.copy place) (.copied histories.length)

/-! ## Single requests -/

/-- A reference is answered by its pool, which changes in place. -/
theorem answer_resolve {place : Nat} {pool : EnumPool} (h : family[place]? = some pool)
    (name : String) :
    answer family (.resolve place name) =
      some (.resolved (pool.resolve name).1, family.set place (pool.resolve name).2) := by
  rw [answer, h, Option.map_some]

/-- The question whether an enum is used changes nothing. -/
theorem answer_isUsed {place : Nat} {pool : EnumPool} (h : family[place]? = some pool)
    (name : String) :
    answer family (.isUsed place name) = some (.used (pool.isUsed name), family) := by
  rw [answer, h, Option.map_some]

/-- A copy is put behind all pools. -/
theorem answer_copy {place : Nat} {pool : EnumPool} (h : family[place]? = some pool) :
    answer family (.copy place) = some (.copied family.length, family ++ [pool]) := by
  rw [answer, h, Option.map_some]

/-- The first request is answered before the rest. -/
theorem answers_cons {given : Answer} {next : List EnumPool}
    (h : answer family request = some (given, next)) (rest : List Request) :
    answers family (request :: rest) = (answers next rest).map (given :: ·) := by
  simp only [answers, h, Option.bind_eq_bind, Option.bind_some]
  cases answers next rest <;> rfl

/-! ## A family in step with its histories -/

/-- Each pool of the family holds the definitions and follows the history at its place. -/
structure Keeps (definitions : List (String × AvroType)) (histories : List (List String))
    (family : List EnumPool) : Prop where
  length_eq : family.length = histories.length
  follows : ∀ (place : Nat) (history : List String) (pool : EnumPool),
    histories[place]? = some history → family[place]? = some pool →
      Follows definitions history pool

/-- At each place there is a history, and a pool that follows it. -/
theorem Keeps.exists_of_lt (h : Keeps definitions histories family) {place : Nat}
    (hplace : place < histories.length) :
    ∃ history pool, histories[place]? = some history ∧ family[place]? = some pool ∧
      Follows definitions history pool := by
  have hfamily : place < family.length := h.length_eq ▸ hplace
  have hhistory := List.getElem?_eq_getElem hplace
  have hpool := List.getElem?_eq_getElem hfamily
  exact ⟨_, _, hhistory, hpool, h.follows place _ _ hhistory hpool⟩

/-- A reference becomes what its history calls for. -/
theorem Follows.isReference {history : List String} {pool : EnumPool}
    (h : Follows definitions history pool) (name : String) :
    IsReference definitions history name (pool.resolve name).1 := by
  have hdistinct : (definitions.map Prod.fst).Nodup := h.definitions_eq ▸ pool.distinct
  have hsome : ∀ definition, (name, definition) ∈ definitions →
      (pool.resolve name).1 = some (if name ∈ history then .named name else definition) := by
    intro definition hmem
    rw [h.resolve_fst, (lookup_eq_some_iff_mem hdistinct).2 hmem, Option.map_some]
  refine ⟨?_, hsome, fun definition hmem hne => ?_⟩
  · rw [h.resolve_fst, Option.map_eq_none_iff, ← isSome_lookup_iff, Option.not_isSome_iff_eq_none]
  · rw [hsome definition hmem]
    by_cases hname : name ∈ history
    · simp [hname, Ne.symm hne]
    · simp [hname, hne]

/-- A reference adds its name to the history at its place. -/
theorem Keeps.resolve (h : Keeps definitions histories family) {place : Nat} {pool : EnumPool}
    (hpool : family[place]? = some pool) (name : String) :
    Keeps definitions (histories.modify place (· ++ [name]))
      (family.set place (pool.resolve name).2) := by
  refine ⟨by simp [h.length_eq], fun other history next hhistory hnext => ?_⟩
  rw [List.getElem?_modify, Option.map_eq_map, Option.map_eq_some_iff] at hhistory
  obtain ⟨old, hold, rfl⟩ := hhistory
  by_cases hother : place = other
  · subst hother
    rw [List.getElem?_set_self (List.getElem?_eq_some_iff.1 hpool).1, Option.some_inj] at hnext
    subst hnext
    simpa using (h.follows place old pool hold hpool).resolve name
  · rw [List.getElem?_set_ne hother] at hnext
    simpa [hother] using h.follows other old next hold hnext

/-- A copy starts from the history of its parent. -/
theorem Keeps.copy (h : Keeps definitions histories family) {place : Nat} {history : List String}
    {pool : EnumPool} (hhistory : histories[place]? = some history)
    (hpool : family[place]? = some pool) :
    Keeps definitions (histories ++ [history]) (family ++ [pool]) := by
  refine ⟨by simp [h.length_eq], fun other old next hold hnext => ?_⟩
  by_cases hother : other < histories.length
  · rw [List.getElem?_append_left hother] at hold
    rw [List.getElem?_append_left (h.length_eq ▸ hother)] at hnext
    exact h.follows other old next hold hnext
  · -- only the copy lies beyond the old family
    have hlast : other = histories.length := by
      have hlt := (List.getElem?_eq_some_iff.1 hold).1
      rw [List.length_append, List.length_singleton] at hlt
      omega
    subst hlast
    obtain rfl : history = old := by simpa using hold
    obtain rfl : pool = next := by simpa [← h.length_eq] using hnext
    exact h.follows place history pool hhistory hpool

/-- One request: it is answered by the histories, and the family stays in step with them. -/
theorem Keeps.answer (h : Keeps definitions histories family)
    (hplace : request.place < histories.length) :
    ∃ given next, EnumPool.answer family request = some (given, next) ∧
      Keeps definitions (recorded histories request) next ∧
      IsAnswer definitions histories request given := by
  obtain ⟨history, pool, hhistory, hpool, hfollows⟩ := h.exists_of_lt hplace
  cases request with
  | resolve place name =>
    exact ⟨_, _, answer_resolve hpool name, h.resolve hpool name,
      .resolved hhistory (hfollows.isReference name)⟩
  | isUsed place name =>
    refine ⟨_, _, answer_isUsed hpool name, h, .used hhistory ?_⟩
    rw [hfollows.isUsed_iff, isSome_lookup_iff]
  | copy place =>
    refine ⟨_, _, answer_copy hpool, ?_, h.length_eq ▸ .copied⟩
    simp only [Request.place] at hhistory
    rw [recorded, hhistory, Option.getD_some]
    exact h.copy hhistory hpool

/-- A run: whatever requests come after it, its own answers are those that the histories call for.
-/
theorem Keeps.answers (h : Keeps definitions histories family) {requests : List Request}
    (hpresent : ∀ i request, requests[i]? = some request →
      request.place < ((requests.take i).foldl recorded histories).length) :
    ∃ given reached, given.length = requests.length ∧
      (∀ i request, requests[i]? = some request → ∃ answer, given[i]? = some answer ∧
        IsAnswer definitions ((requests.take i).foldl recorded histories) request answer) ∧
      Keeps definitions (requests.foldl recorded histories) reached ∧
      ∀ rest, EnumPool.answers family (requests ++ rest) =
        (EnumPool.answers reached rest).map (given ++ ·) := by
  induction requests generalizing histories family with
  | nil => exact ⟨[], family, rfl, by simp, h, fun rest => by simp⟩
  | cons request requests ih =>
    -- the first request is answered now, and the rest from the histories after it
    obtain ⟨answer, next, hanswer, hnext, hright⟩ := h.answer (hpresent 0 request rfl)
    obtain ⟨given, reached, hlength, hgiven, hreached, hrest⟩ :=
      ih hnext fun i later hlater => hpresent (i + 1) later hlater
    refine ⟨answer :: given, reached, by simp [hlength], ?_, hreached, fun rest => ?_⟩
    · rintro (_ | i) later hlater
      · obtain rfl : request = later := by simpa using hlater
        exact ⟨answer, rfl, hright⟩
      · exact hgiven i later hlater
    · rw [List.cons_append, answers_cons hanswer, hrest, Option.map_map]
      rfl

/-! ## Other pools -/

/-- The request refers to a name or asks about one, and goes to a pool among the first `count`, but
not to the one at `place`. -/
def Request.Avoids (place count : Nat) : Request → Prop
  | .resolve other _ => other ≠ place ∧ other < count
  | .isUsed other _ => other ≠ place ∧ other < count
  | .copy _ => False

/-- The pools of the first family are in the second as well, but for the one at the place. -/
def AgreeApart (place : Nat) (first second : List EnumPool) : Prop :=
  ∀ other < first.length, other ≠ place → second[other]? = first[other]?

/-- A request leaves all pools but the one that it goes to. -/
theorem agreeApart_of_answer {given : Answer} {next : List EnumPool}
    (h : answer family request = some (given, next)) : AgreeApart request.place family next := by
  intro other hlt hother
  cases request with
  | resolve place name =>
    obtain ⟨pool, -, hnext⟩ := Option.map_eq_some_iff.1 h
    obtain ⟨-, rfl⟩ := Prod.mk.inj hnext
    exact List.getElem?_set_ne (Ne.symm hother)
  | isUsed place name =>
    obtain ⟨pool, -, hnext⟩ := Option.map_eq_some_iff.1 h
    obtain ⟨-, rfl⟩ := Prod.mk.inj hnext
    rfl
  | copy place =>
    obtain ⟨pool, -, hnext⟩ := Option.map_eq_some_iff.1 h
    obtain ⟨-, rfl⟩ := Prod.mk.inj hnext
    exact List.getElem?_append_left hlt

/-- The same change to a pool elsewhere keeps two families in agreement. -/
theorem AgreeApart.set {place : Nat} {first second : List EnumPool}
    (h : AgreeApart place first second) {other : Nat} {pool : EnumPool}
    (hpool : second[other]? = some pool) (next : EnumPool) :
    AgreeApart place (first.set other next) (second.set other next) := by
  intro x hx hne
  rw [List.length_set] at hx
  by_cases hother : other = x
  · subst hother
    rw [List.getElem?_set_self hx, List.getElem?_set_self (List.getElem?_eq_some_iff.1 hpool).1]
  · rw [List.getElem?_set_ne hother, List.getElem?_set_ne hother, h x hx hne]

/-- What avoids the place is answered, and alike, in families that agree apart from it. -/
theorem AgreeApart.exists_answers {place : Nat} {first second : List EnumPool}
    (h : AgreeApart place first second) {requests : List Request}
    (havoids : ∀ request ∈ requests, request.Avoids place first.length) :
    ∃ given, answers first requests = some given ∧ answers second requests = some given := by
  induction requests generalizing first second with
  | nil => exact ⟨[], rfl, rfl⟩
  | cons request requests ih =>
    rw [List.forall_mem_cons] at havoids
    obtain ⟨hrequest, hrequests⟩ := havoids
    cases request with
    | resolve other name =>
      have hfirst := List.getElem?_eq_getElem hrequest.2
      have hsecond := (h other hrequest.2 hrequest.1).trans hfirst
      rw [answers_cons (answer_resolve hfirst name), answers_cons (answer_resolve hsecond name)]
      obtain ⟨given, hgiven, hsame⟩ := ih (h.set hsecond _) (by simpa using hrequests)
      exact ⟨_, by rw [hgiven]; rfl, by rw [hsame]; rfl⟩
    | isUsed other name =>
      have hfirst := List.getElem?_eq_getElem hrequest.2
      have hsecond := (h other hrequest.2 hrequest.1).trans hfirst
      rw [answers_cons (answer_isUsed hfirst name), answers_cons (answer_isUsed hsecond name)]
      obtain ⟨given, hgiven, hsame⟩ := ih h hrequests
      exact ⟨_, by rw [hgiven]; rfl, by rw [hsame]; rfl⟩
    -- a copy could be of the pool that is left out, so it is not asked for
    | copy other => exact hrequest.elim

/-! ## All answers -/

/-- The pool and its copies, and their copies in turn, answer by their histories alone. -/
structure AnswersByHistory (definitions : List (String × AvroType)) (pool : EnumPool) : Prop where
  answered : ∀ requests, ArePresent requests → ∃ given, answers [pool] requests = some given ∧
    given.length = requests.length ∧
    ∀ i request, requests[i]? = some request → ∃ answer, given[i]? = some answer ∧
      IsAnswer definitions (historiesAfter (requests.take i)) request answer
  /-- A request in between changes no answer that another pool gives after it. -/
  independent : ∀ before request rest, ArePresent (before ++ [request]) →
    (∀ later ∈ rest, later.Avoids request.place (historiesAfter before).length) →
    ∃ given answer further, given.length = before.length ∧
      answers [pool] (before ++ rest) = some (given ++ further) ∧
      answers [pool] (before ++ request :: rest) = some (given ++ answer :: further)

/-- The first of some requests ask for pools that are there. -/
theorem ArePresent.left {before rest : List Request} (h : ArePresent (before ++ rest)) :
    ArePresent before := by
  intro i request hrequest
  have hlt := (List.getElem?_eq_some_iff.1 hrequest).1
  have hplace := h i request (by rw [List.getElem?_append_left hlt, hrequest])
  rwa [List.take_append_of_le_length (Nat.le_of_lt hlt)] at hplace

/-- A request asks for a pool that is there after those before it. -/
theorem ArePresent.place_lt {before rest : List Request}
    (h : ArePresent (before ++ request :: rest)) :
    request.place < (historiesAfter before).length := by
  simpa using h before.length request (by simp)

/-- A fresh pool is a family in step with no references. -/
theorem keeps_singleton {pool : EnumPool} (h : Follows definitions [] pool) :
    Keeps definitions [[]] [pool] := by
  refine ⟨rfl, fun place history other hhistory hother => ?_⟩
  cases place with
  | zero =>
    obtain rfl := Option.some.inj hhistory
    obtain rfl := Option.some.inj hother
    exact h
  | succ place => cases hother

/-- The pools that copying a fresh pool leads to answer by their histories. -/
theorem answersByHistory_of_follows {pool : EnumPool} (h : Follows definitions [] pool) :
    AnswersByHistory definitions pool where
  answered requests hpresent := by
    obtain ⟨given, reached, hlength, hgiven, -, hrest⟩ := (keeps_singleton h).answers hpresent
    have hall := hrest []
    rw [List.append_nil, EnumPool.answers, Option.map_some, List.append_nil] at hall
    exact ⟨given, hall, hlength, hgiven⟩
  independent before request rest hpresent havoids := by
    obtain ⟨given, reached, hlength, -, hreached, hrest⟩ :=
      (keeps_singleton h).answers hpresent.left
    obtain ⟨answer, next, hanswer, -, -⟩ := hreached.answer hpresent.place_lt
    rw [historiesAfter, ← hreached.length_eq] at havoids
    obtain ⟨further, hfurther, hsame⟩ := (agreeApart_of_answer hanswer).exists_answers havoids
    refine ⟨given, answer, further, hlength, ?_, ?_⟩
    · rw [hrest, hfurther, Option.map_some]
    · rw [hrest, answers_cons hanswer, hsame, Option.map_some, Option.map_some]

/-! ## Making a pool -/

/-- A pool is refused for the first name that is repeated. -/
theorem ofDefinitions_eq_error_iff {fault : Fault} :
    ofDefinitions definitions = .error fault ↔
      ∃ name, firstRepeated? (definitions.map Prod.fst) = some name ∧
        fault = .duplicateEnum name := by
  unfold ofDefinitions
  split
  · rename_i name hname
    simp [hname, eq_comm]
  · rename_i hname
    simp [hname]

/-- A pool that is made is fresh. -/
theorem follows_of_ofDefinitions {pool : EnumPool} (h : ofDefinitions definitions = .ok pool) :
    Follows definitions [] pool := by
  unfold ofDefinitions at h
  split at h
  · cases h
  · obtain rfl := Except.ok.inj h
    exact follows_nil rfl rfl

/-- **Pools answer by their histories.** A pool can be made of definitions unless a name is
repeated, and the first repetition is the fault. Of a pool that is made, the answers of all pools
that copying it leads to are known by their histories. -/
theorem ofDefinitions_answers (definitions : List (String × AvroType)) :
    ((∃ fault, ofDefinitions definitions = .error fault) ↔
      ¬(definitions.map Prod.fst).Nodup) ∧
    (∀ fault, ofDefinitions definitions = .error fault ↔
      ∃ before entry after, definitions = before ++ entry :: after ∧
        (before.map Prod.fst).Nodup ∧ entry.1 ∈ before.map Prod.fst ∧
        fault = .duplicateEnum entry.1) ∧
    ∀ pool, ofDefinitions definitions = .ok pool → AnswersByHistory definitions pool := by
  refine ⟨?_, fun fault => ?_, fun pool h =>
    answersByHistory_of_follows (follows_of_ofDefinitions h)⟩
  · simp only [ofDefinitions_eq_error_iff, ← firstRepeated?_eq_none_iff, ← ne_eq,
      Option.ne_none_iff_exists']
    constructor
    · rintro ⟨fault, name, hname, -⟩
      exact ⟨name, hname⟩
    · rintro ⟨name, hname⟩
      exact ⟨_, name, hname, rfl⟩
  · simp only [ofDefinitions_eq_error_iff, firstRepeated?_eq_some_iff]
    constructor
    · -- names before the repeated one are those of the definitions before its own
      rintro ⟨name, ⟨names, later, hsplit, hnodup, hmem⟩, rfl⟩
      obtain ⟨before, rest, rfl, rfl, hrest⟩ := List.map_eq_append_iff.1 hsplit
      obtain ⟨entry, after, rfl, rfl, rfl⟩ := List.map_eq_cons_iff.1 hrest
      exact ⟨before, entry, after, rfl, hnodup, hmem, rfl⟩
    · rintro ⟨before, entry, after, rfl, hnodup, hmem, rfl⟩
      exact ⟨entry.1, ⟨_, after.map Prod.fst, by simp, hnodup, hmem⟩, rfl⟩

/-- Two definitions. -/
def suitAndRank : List (String × AvroType) :=
  [("Suit", .enum "enum" "Suit" none ["SPADES"]), ("Rank", .enum "enum" "Rank" none ["ACE"])]

/-- A copy is made between two references to a definition, and goes its own way. -/
def suitRequests : List Request :=
  [.resolve 0 "Suit", .copy 0, .resolve 1 "Suit", .resolve 1 "Rank", .isUsed 0 "Rank"]

/-- Two enums referred to through a pool and its copy, and the same two said twice. -/
theorem ofDefinitions_answers_suits :
    (∃ pool given, ofDefinitions suitAndRank = .ok pool ∧ ArePresent suitRequests ∧
      answers [pool] suitRequests = some given ∧ given.length = suitRequests.length ∧
      ∀ i request, suitRequests[i]? = some request → ∃ answer, given[i]? = some answer ∧
        IsAnswer suitAndRank (historiesAfter (suitRequests.take i)) request answer) ∧
    ∃ fault, ofDefinitions (suitAndRank ++ suitAndRank) = .error fault ∧
      fault = .duplicateEnum "Suit" := by
  have hpresent : ArePresent suitRequests := by
    rintro (_ | _ | _ | _ | _ | i) request h <;> cases h <;> decide
  obtain ⟨pool, hpool⟩ : ∃ pool, ofDefinitions suitAndRank = .ok pool := ⟨_, rfl⟩
  obtain ⟨given, hgiven, hright⟩ :=
    ((ofDefinitions_answers suitAndRank).2.2 pool hpool).answered suitRequests hpresent
  refine ⟨⟨pool, given, hpool, hpresent, hgiven, hright⟩, _, ?_, rfl⟩
  exact ((ofDefinitions_answers (suitAndRank ++ suitAndRank)).2.1 _).2
    ⟨suitAndRank, _, [("Rank", .enum "enum" "Rank" none ["ACE"])], rfl, by decide, by decide, rfl⟩

end RelationalAvro.EnumPool
