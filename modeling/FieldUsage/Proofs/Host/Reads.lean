import FieldUsage.Host.Module
import Mathlib.Data.List.Perm.Subperm

/-!
Where the templates that a reader finds stand. A reader only moves forward, so the templates of a
construct lie between the place where it begins and the place where it ends, and constructs that are
read one after the other have their templates one behind the other. What a reader gives back may
list them in another order than the one they were read in; it does so only where types are read, and
for classes and `do` loops. Both facts are one property of readers, kept by every way to compose
them.
-/

namespace FieldUsage.Host

variable {text : List Char} {ordered : Prop} {α β σ : Type}

namespace Cursor

theorem offset_le_next (cursor : Cursor text) : cursor.offset ≤ cursor.next.offset := by
  unfold next
  split
  · exact Nat.le_refl _
  · exact Nat.le_add_left _ _

theorem offset_le_advance (cursor : Cursor text) (count : Nat) :
    cursor.offset ≤ (cursor.advance count).offset := by
  induction count generalizing cursor with
  | zero => exact Nat.le_refl _
  | succ count ih => exact Nat.le_trans cursor.offset_le_next (ih cursor.next)

theorem offset_next (cursor : Cursor text) {c : Char} {rest : List Char}
    (h : cursor.rest = c :: rest) : cursor.next.offset = c.utf8Size + cursor.offset := by
  unfold next
  split
  · simp_all
  · simp_all

/-- A place that is a text further is as many bytes further as the text is long. -/
theorem offset_advance_length (cursor : Cursor text) {piece more : List Char}
    (h : cursor.rest = piece ++ more) :
    (cursor.advance piece.length).offset = cursor.offset + Text.size piece ∧
      (cursor.advance piece.length).rest = more := by
  induction piece generalizing cursor with
  | nil => simpa [advance] using h
  | cons c piece ih =>
      have ⟨offset, rest⟩ := ih cursor.next (cursor.rest_next h)
      rw [cursor.offset_next h] at offset
      refine ⟨?_, rest⟩
      rw [List.length_cons, advance, offset, Text.size_cons]
      omega

/-- Every place of a text is reached from its beginning. -/
theorem advance_start (cursor : Cursor text) :
    ((start text).advance cursor.before.length).offset = cursor.offset ∧
      ((start text).advance cursor.before.length).rest = cursor.rest := by
  have whole : (start text).rest = cursor.before.reverse ++ cursor.rest := cursor.whole.symm
  have ⟨offset, rest⟩ := (start text).offset_advance_length whole
  rw [List.length_reverse] at offset rest
  refine ⟨?_, rest⟩
  rw [offset, cursor.offset_eq, Text.size_reverse]
  exact Nat.zero_add _

end Cursor

namespace Template

/-- The byte offset right behind the first segment. -/
def stop (template : Template text) : Nat :=
  template.start.offset + Text.size template.raw

/-- The first segment of one template ends before that of another begins. -/
def Precedes (first second : Template text) : Prop :=
  first.stop < second.start.offset

/-- Two templates are apart, and in order if they have to be. -/
def Clear (ordered : Prop) (first second : Template text) : Prop :=
  first.Precedes second ∨ ¬ ordered ∧ second.Precedes first

theorem Clear.symm (free : ¬ ordered) {first second : Template text}
    (clear : Clear ordered first second) : Clear ordered second first :=
  clear.elim (fun before => .inr ⟨free, before⟩) fun behind => .inl behind.2

end Template

/-- Templates that lie before an offset and are clear of each other. -/
structure Passed (ordered : Prop) (offset : Nat) (found : Found text) : Prop where
  ends : ∀ template ∈ found, template.stop < offset
  clear : found.Pairwise (Template.Clear ordered)

/-- What lies before a place lies before any later place. -/
theorem Passed.mono {low high : Nat} {found : Found text} (passed : Passed ordered low found)
    (le : low ≤ high) : Passed ordered high found :=
  ⟨fun template member => Nat.lt_of_lt_of_le (passed.ends template member) le, passed.clear⟩

/-- The templates that are kept of those that were read: in the order of reading if they have to
be. -/
structure Kept (ordered : Prop) (kept all : Found text) : Prop where
  among : kept.Subperm all
  inOrder : ordered → kept.Sublist all

namespace Kept

variable {kept all : Found text}

theorem of_sublist (sublist : kept.Sublist all) : Kept ordered kept all :=
  ⟨sublist.subperm, fun _ => sublist⟩

@[simp] theorem refl (found : Found text) : Kept ordered found found :=
  of_sublist (List.Sublist.refl _)

@[simp] theorem nil (found : Found text) : Kept ordered [] found :=
  of_sublist (List.nil_sublist _)

@[simp] theorem before (first second : Found text) : Kept ordered first (first ++ second) :=
  of_sublist (List.sublist_append_left _ _)

@[simp] theorem behind (first second : Found text) : Kept ordered second (first ++ second) :=
  of_sublist (List.sublist_append_right _ _)

/-- Templates that are kept in another order than they were read in, where order does not matter. -/
theorem reordered (inOrder : ordered → kept.Sublist all)
    (counted : ∀ p, kept.countP p ≤ all.countP p := by simp +arith) : Kept ordered kept all := by
  classical
  refine ⟨List.subperm_ext_iff.2 fun template _ => ?_, inOrder⟩
  exact counted (· == template)

end Kept

/-- Templates may be dropped, and put into another order where that is allowed. -/
theorem Passed.kept {offset : Nat} {before kept all : Found text}
    (passed : Passed ordered offset (before ++ all)) (some : Kept ordered kept all) :
    Passed ordered offset (before ++ kept) := by
  constructor
  · intro template member
    refine passed.ends template ?_
    rw [List.mem_append] at member ⊢
    exact member.imp_right fun inside => some.among.subset inside
  · by_cases strict : ordered
    · exact passed.clear.sublist ((some.inOrder strict).append_left before)
    · obtain ⟨list, perm, sublist⟩ := some.among
      have clear := passed.clear.sublist (sublist.append_left before)
      refine (List.Perm.pairwise_iff ?_ (perm.append_left before)).1 clear
      exact Template.Clear.symm strict

/-- Words that begin constructs whose parts are not listed in the order they are written in. -/
def reorderingWords : List String := ["class", "do"]

/-- A word can be read at some place of a text. -/
def Occurs (text : List Char) (word : String) : Prop :=
  ∃ cursor : Cursor text, (lexeme cursor.offset cursor.rest).token = .word word false

/-- Whether a word occurs can be decided: places beyond the end of a text show nothing new. -/
theorem occurs_iff (text : List Char) (word : String) :
    Occurs text word ↔ ∃ count ∈ List.range (text.length + 1),
      (lexeme ((Cursor.start text).advance count).offset
        ((Cursor.start text).advance count).rest).token = .word word false := by
  constructor
  · rintro ⟨cursor, read⟩
    obtain ⟨offset, rest⟩ := cursor.advance_start
    have whole := congrArg List.length cursor.whole
    rw [List.length_append, List.length_reverse] at whole
    refine ⟨cursor.before.length, List.mem_range.2 (by omega), ?_⟩
    rw [offset, rest]
    exact read
  · rintro ⟨count, -, read⟩
    exact ⟨_, read⟩

instance (text : List Char) (word : String) : Decidable (Occurs text word) :=
  decidable_of_iff _ (occurs_iff text word).symm

/-- A token that reorders nothing if order matters. -/
def Token.Harmless (ordered : Prop) (token : Token) : Prop :=
  ordered → ∀ word ∈ reorderingWords, token ≠ .word word false

theorem Token.Harmless.not_ordered {word : String}
    (harmless : (Token.word word false).Harmless ordered) (member : word ∈ reorderingWords) :
    ¬ ordered :=
  fun strict => harmless strict word member rfl

/-- A state from which templates are read in order, if they have to be. -/
structure Sound (ordered : Prop) (context : Context) (state : State text) : Prop where
  budget : 0 < context.budget
  untyped : ordered → context.dialect.types = false
  absent : ordered → ∀ word ∈ reorderingWords, ¬ Occurs text word
  harmless : state.token.Harmless ordered
  /-- A backquote is a token of its own. -/
  quoted : state.cursor.rest.head? = some '`' → state.length = 1

/-- Only the token, the place, the dialect and the budget matter to whether a state is sound. -/
theorem Sound.of_same {context context' : Context} {state state' : State text}
    (sound : Sound ordered context state) (budget : context'.budget = context.budget)
    (dialect : context'.dialect = context.dialect) (token : state'.token = state.token)
    (cursor : state'.cursor = state.cursor) (length : state'.length = state.length) :
    Sound ordered context' state' := by
  obtain ⟨h₁, h₂, h₃, h₄, h₅⟩ := sound
  exact ⟨budget ▸ h₁, dialect ▸ h₂, h₃, token ▸ h₄, by rw [cursor, length]; exact h₅⟩

/-- The templates in what a reader gives. -/
class Carries (text : List Char) (α : Type) where
  templates : α → Found text

def carried (text : List Char) [Carries text α] (value : α) : Found text :=
  Carries.templates value

instance : Carries text (Found text) := ⟨id⟩
instance : Carries text (Node text) := ⟨Node.templates⟩
instance [Carries text α] : Carries text (Option α) := ⟨fun value => value.elim [] (carried text)⟩
instance [Carries text α] [Carries text β] : Carries text (α × β) :=
  ⟨fun value => carried text value.1 ++ carried text value.2⟩

/-- There are no templates in what a reader gives. -/
class Bare (text : List Char) (α : Type) extends Carries text α where
  templates := fun _ => []
  bare : ∀ value, templates value = [] := by intro; rfl

instance : Bare text Unit := {}
instance : Bare text Bool := {}
instance : Bare text Nat := {}
instance : Bare text String := {}
instance : Bare text Token := {}
instance : Bare text Context := {}
instance : Bare text (State text) := {}
instance : Bare text (Word text) := {}
instance : Bare text (ForInStep Unit) := {}

section Carried

variable [Carries text α] [Carries text β]

@[simp] theorem carried_found (found : Found text) : carried text found = found := rfl
@[simp] theorem carried_node (node : Node text) : carried text node = node.templates := rfl
@[simp] theorem carried_none : carried text (none : Option α) = [] := rfl
@[simp] theorem carried_some (value : α) : carried text (some value) = carried text value := rfl
@[simp] theorem carried_pair (value : α) (other : β) :
    carried text (value, other) = carried text value ++ carried text other := rfl

end Carried

@[simp] theorem carried_bare [Bare text α] (value : α) : carried text value = [] :=
  Bare.bare value

instance [Bare text α] : Bare text (Option α) where
  toCarries := inferInstance
  bare value := by
    cases value with
    | none => rfl
    | some value => exact carried_bare value

instance [Bare text α] [Bare text β] : Bare text (α × β) where
  toCarries := inferInstance
  bare value := by
    change carried text value.1 ++ carried text value.2 = []
    rw [carried_bare, carried_bare]
    rfl

/-- What a run leaves behind: a sound state that is no further back. -/
structure Moved (ordered : Prop) (context : Context) (state next : State text) : Prop where
  sound : Sound ordered context next
  forward : state.cursor.offset ≤ next.cursor.offset

theorem Moved.refl {context : Context} {state : State text} (sound : Sound ordered context state) :
    Moved ordered context state state :=
  ⟨sound, Nat.le_refl _⟩

/-- Steps forward add up. -/
theorem Moved.trans {context : Context} {first second third : State text}
    (one : Moved ordered context first second) (two : Moved ordered context second third) :
    Moved ordered context first third :=
  ⟨two.sound, Nat.le_trans one.forward two.forward⟩

/-- What a run from a state has come to. Whether or not it succeeds, it has moved forward; the
templates it gives are clear of each other and of those before. -/
def Outcome (ordered : Prop) [Carries text α] (before : Found text) (tells : α → Prop)
    (context : Context) (state : State text) : EStateM.Result Nat (State text) α → Prop
  | .ok value next =>
      Moved ordered context state next ∧
        Passed ordered next.cursor.offset (before ++ carried text value) ∧ tells value
  | .error _ next => Moved ordered context state next

/-- What happens after a step forward happens from before the step, too. -/
theorem Outcome.trans [Carries text α] {before : Found text} {tells : α → Prop} {context : Context}
    {state next : State text} {result : EStateM.Result Nat (State text) α}
    (moved : Moved ordered context state next)
    (outcome : Outcome ordered before tells context next result) :
    Outcome ordered before tells context state result := by
  cases result with
  | ok value last => exact ⟨moved.trans outcome.1, outcome.2⟩
  | error fault last => exact moved.trans outcome

/-- A run of a reader from one state on, when all templates read so far end before some place. Of
these the reader may give back the ones seen last. It has to pass that place if it succeeds. -/
def ReadsFrom (ordered : Prop) [Carries text α] (place : Nat) (seen : Found text)
    (reader : Reader text α) (tells : α → Prop) (context : Context) (state : State text) : Prop :=
  ∀ before : Found text, Passed ordered place (before ++ seen) →
    Outcome ordered before tells context state (reader context state)

/-- A reader that gives back templates as they stand in the text, of those it finds and of some that
were seen right before; it also tells a fact about what it gives. -/
class Reads (ordered : Prop) [Carries text α] (seen : outParam (Found text))
    (reader : Reader text α) (tells : outParam (α → Prop)) : Prop where
  from_sound : ∀ context state, Sound ordered context state →
    ReadsFrom ordered state.cursor.offset seen reader tells context state

@[simp] def Silent (_ : α) : Prop := True

section Runs

variable {context : Context} {state state' : State text}

theorem run_bind_ok {reader : Reader text β} {next : β → Reader text α} {value : β}
    (run : reader context state = .ok value state') :
    (reader >>= next) context state = next value context state' := by
  simp only [bind, ReaderT.bind, EStateM.bind, run]

theorem run_bind_error {reader : Reader text β} {next : β → Reader text α} {fault : Nat}
    (run : reader context state = .error fault state') :
    (reader >>= next) context state = .error fault state' := by
  simp only [bind, ReaderT.bind, EStateM.bind, run]

theorem run_tryCatch_ok {reader : Reader text α}
    {handler : Nat → Reader text α} {value : α} (run : reader context state = .ok value state') :
    (tryCatch reader handler) context state = .ok value state' := by
  simp only [tryCatch, tryCatchThe, MonadExceptOf.tryCatch, EStateM.tryCatch, run]

theorem run_tryCatch_error {reader : Reader text α}
    {handler : Nat → Reader text α} {fault : Nat}
    (run : reader context state = .error fault state') :
    (tryCatch reader handler) context state = handler fault context state' := by
  simp only [tryCatch, tryCatchThe, MonadExceptOf.tryCatch, EStateM.tryCatch, run]
  rfl

theorem run_attempt_ok {reader : Reader text α}
    {value : α} (run : reader { context with silent := true } state = .ok value state') :
    Reader.attempt reader context state = .ok (some value) state' := by
  change (match reader { context with silent := true } state with
    | .ok value state' => (do set state'; return some value : Reader text (Option α))
    | .error .. => (return none : Reader text (Option α))) context state = _
  rw [run]
  rfl

theorem run_attempt_error {reader : Reader text α}
    {fault : Nat} (run : reader { context with silent := true } state = .error fault state') :
    Reader.attempt reader context state = .ok none state := by
  change (match reader { context with silent := true } state with
    | .ok value state' => (do set state'; return some value : Reader text (Option α))
    | .error .. => (return none : Reader text (Option α))) context state = _
  rw [run]
  rfl

/-- A look ahead never fails and leaves the state as it is. -/
theorem run_lookahead (reader : Reader text Bool) (context : Context) (state : State text) :
    ∃ value, Reader.lookahead reader context state = .ok value state := by
  have reads : (read : Reader text Context) context state = .ok context state := rfl
  have gets : (get : Reader text (State text)) context state = .ok state state := rfl
  unfold Reader.lookahead
  rw [run_bind_ok reads, run_bind_ok gets]
  cases reader { context with silent := true } state with
  | ok value _ => exact ⟨value, rfl⟩
  | error => exact ⟨false, rfl⟩

end Runs

section Rules

variable [Carries text α] [Carries text β] [Carries text σ]
variable {seen : Found text} {tells : α → Prop} {context : Context} {state : State text}

theorem ReadsFrom.ok {place : Nat} {reader : Reader text α} {value : α} {next : State text}
    (run : reader context state = .ok value next) (moved : Moved ordered context state next)
    (reached : place ≤ next.cursor.offset) (kept : Kept ordered (carried text value) seen)
    (told : tells value) : ReadsFrom ordered place seen reader tells context state := by
  intro before passed
  rw [run]
  exact ⟨moved, (passed.kept kept).mono reached, told⟩

theorem ReadsFrom.error {place : Nat} {reader : Reader text α} {fault : Nat} {next : State text}
    (run : reader context state = .error fault next) (moved : Moved ordered context state next) :
    ReadsFrom ordered place seen reader tells context state := by
  intro before passed
  rw [run]
  exact moved

theorem ReadsFrom.imp {place : Nat} {reader : Reader text α} {tells' : α → Prop}
    (h : ReadsFrom ordered place seen reader tells' context state)
    (told : ∀ value, tells' value → tells value) :
    ReadsFrom ordered place seen reader tells context state := by
  intro before passed
  have result := h before passed
  cases run : reader context state with
  | ok value next =>
      rw [run] at result
      exact ⟨result.1, result.2.1, told value result.2.2⟩
  | error fault next =>
      rw [run] at result
      exact result

omit [Carries text β] in
theorem ReadsFrom.step {place : Nat} {reader : Reader text β} {next : β → Reader text α}
    {value : β} {state' : State text} (run : reader context state = .ok value state')
    (moved : Moved ordered context state state')
    (rest : ReadsFrom ordered place seen (next value) tells context state') :
    ReadsFrom ordered place seen (reader >>= next) tells context state := by
  intro before passed
  rw [run_bind_ok run]
  exact .trans moved (rest before passed)

/-- One reader after the other: what the first one gives is seen by the second. -/
theorem ReadsFrom.bind {place : Nat} {seen' : Found text} {reader : Reader text β}
    {next : β → Reader text α} {tells' : β → Prop}
    (first : ReadsFrom ordered place seen' reader tells' context state)
    (then_ : ∀ value, tells' value →
      Reads ordered (seen ++ carried text value) (next value) tells) :
    ReadsFrom ordered place (seen ++ seen') (reader >>= next) tells context state := by
  intro before passed
  have result := first (before ++ seen) (by simpa using passed)
  cases run : reader context state with
  | error fault state' =>
      rw [run] at result
      rw [run_bind_error run]
      exact result
  | ok value state' =>
      rw [run] at result
      rw [run_bind_ok run]
      obtain ⟨moved, passed', told⟩ := result
      refine .trans moved ?_
      exact (then_ value told).from_sound context state' moved.sound before (by simpa using passed')

namespace Reads

/-- The last reader takes up what was seen. -/
theorem last {seen' : Found text} {reader : Reader text α} {tells' : α → Prop}
    [h : Reads ordered seen' reader tells'] (k : Kept ordered seen' seen := by simp)
    (t : ∀ value, tells' value → tells value := by simp) :
    Reads ordered seen reader tells := by
  constructor
  intro context state sound before passed
  exact (h.from_sound context state sound).imp t before (passed.kept k)

theorem pure {value : α} (k : Kept ordered (carried text value) seen := by simp)
    (t : tells value := by simp) : Reads ordered seen (Pure.pure value) tells :=
  ⟨fun _ _ sound => .ok rfl (.refl sound) (Nat.le_refl _) k t⟩

/-- A reader after another one that takes up what was seen last. -/
theorem bindLast {seen' : Found text} {reader : Reader text β} {next : β → Reader text α}
    {tells' : β → Prop} [h : Reads ordered seen' reader tells']
    (then_ : ∀ value, tells' value →
      Reads ordered (seen ++ carried text value) (next value) tells) :
    Reads ordered (seen ++ seen') (reader >>= next) tells :=
  ⟨fun context state sound => (h.from_sound context state sound).bind then_⟩

theorem bind {reader : Reader text β} {next : β → Reader text α}
    {tells' : β → Prop} [h : Reads ordered [] reader tells']
    (then_ : ∀ value, tells' value →
      Reads ordered (seen ++ carried text value) (next value) tells) :
    Reads ordered seen (reader >>= next) tells := by
  have whole := bindLast (h := h) then_
  rwa [List.append_nil] at whole

omit [Carries text β] in
theorem pureBind {value : β} {next : β → Reader text α}
    (h : Reads ordered seen (next value) tells) :
    Reads ordered seen (Pure.pure value >>= next) tells := by
  rwa [pure_bind]

/-- A reader that takes up some of what was seen. -/
theorem take (before : Found text) {taken : Found text} {reader : Reader text β}
    {next : β → Reader text α} {tells' : β → Prop} (h : Reads ordered taken reader tells')
    (then_ : ∀ value, tells' value →
      Reads ordered (before ++ carried text value) (next value) tells)
    (k : Kept ordered (before ++ taken) seen := by simp) :
    Reads ordered seen (reader >>= next) tells :=
  have := bindLast (h := h) then_
  last k fun _ => id

theorem first {reader : Reader text β} {next : β → Reader text α}
    (h : Reads ordered [] reader Silent)
    (then_ : ∀ value, Reads ordered (seen ++ carried text value) (next value) tells) :
    Reads ordered seen (reader >>= next) tells :=
  bind fun value _ => then_ value

/-- What was read in between may be dropped. -/
theorem after {reader : Reader text α} (h : Reads ordered seen reader tells) (more : Found text) :
    Reads ordered (seen ++ more) reader tells :=
  last (.of_sublist (List.sublist_append_left _ _)) fun _ => id

theorem ite {condition : Prop} [Decidable condition] {yes no : Reader text α}
    (whenTrue : condition → Reads ordered seen yes tells)
    (whenFalse : ¬ condition → Reads ordered seen no tells) :
    Reads ordered seen (if condition then yes else no) tells := by
  split
  · exact whenTrue ‹_›
  · exact whenFalse ‹_›

/-- A reader that comes first under a condition. -/
theorem when {condition : Prop} [Decidable condition] {reader : Reader text β}
    {next : Reader text α} {tells' : β → Prop} [Reads ordered [] reader tells']
    (rest : Reads ordered seen next tells) :
    Reads ordered seen (if condition then reader >>= fun _ => next else next) tells :=
  ite (fun _ => bind fun _ _ => rest.after _) fun _ => rest

/-- A reader that comes first unless a condition holds. -/
theorem whenNot {condition : Prop} [Decidable condition] {reader : Reader text β}
    {next : Reader text α} {tells' : β → Prop} [Reads ordered [] reader tells']
    (rest : Reads ordered seen next tells) :
    Reads ordered seen (if condition then next else reader >>= fun _ => next) tells :=
  ite (fun _ => rest) fun _ => bind fun _ _ => rest.after _

/-- Two readers that come first under a condition. -/
theorem whenTwo {γ : Type} [Carries text γ] {condition : Prop} [Decidable condition]
    {reader : Reader text β} {reader' : β → Reader text γ} {next : Reader text α}
    {tells' : β → Prop} {tells'' : β → γ → Prop} [Reads ordered [] reader tells']
    [∀ value, Reads ordered [] (reader' value) (tells'' value)]
    (rest : Reads ordered seen next tells) :
    Reads ordered seen
      (if condition then reader >>= fun value => reader' value >>= fun _ => next else next) tells :=
  ite (fun _ => bind fun _ _ => bind fun _ _ => (rest.after _).after _) fun _ => rest

/-- Two readers that come first unless a condition holds. -/
theorem whenNotTwo {γ : Type} [Carries text γ] {condition : Prop} [Decidable condition]
    {reader : Reader text β} {reader' : β → Reader text γ} {next : Reader text α}
    {tells' : β → Prop} {tells'' : β → γ → Prop} [Reads ordered [] reader tells']
    [∀ value, Reads ordered [] (reader' value) (tells'' value)]
    (rest : Reads ordered seen next tells) :
    Reads ordered seen
      (if condition then next else reader >>= fun value => reader' value >>= fun _ => next) tells :=
  ite (fun _ => rest) fun _ => bind fun _ _ => bind fun _ _ => (rest.after _).after _

/-- One of two readers comes first. -/
theorem either {condition : Prop} [Decidable condition] {yes no : Reader text β}
    {next : β → Reader text α} {whenTrue whenFalse : β → Prop}
    [Reads ordered [] yes whenTrue] [Reads ordered [] no whenFalse]
    (rest : ∀ value, (condition → whenTrue value) → (¬ condition → whenFalse value) →
      Reads ordered (seen ++ carried text value) (next value) tells) :
    Reads ordered seen (if condition then yes >>= next else no >>= next) tells :=
  ite
    (fun here => bind fun value told => rest value (fun _ => told) fun away => absurd here away)
    fun away => bind fun value told => rest value (fun here => absurd here away) fun _ => told

instance throw {fault : Nat} : Reads ordered [] (throw fault : Reader text α) fun _ => False :=
  ⟨fun _ _ sound => .error rfl (.refl sound)⟩

/-- After a failure another reader goes on from where the first one has come to. -/
theorem tryCatch {reader : Reader text α} {handler : Nat → Reader text α}
    (first : Reads ordered seen reader tells)
    (second : ∀ fault, Reads ordered seen (handler fault) tells) :
    Reads ordered seen (tryCatch reader handler) tells := by
  constructor
  intro context state sound before passed
  have result := first.from_sound context state sound before passed
  cases run : reader context state with
  | ok value next =>
      rw [run] at result
      rw [run_tryCatch_ok run]
      exact result
  | error fault next =>
      rw [run] at result
      rw [run_tryCatch_error run]
      refine .trans result ?_
      exact (second fault).from_sound context next result.sound before
        (passed.mono result.forward)

/-- A repetition whose first step has to pass some place. It starts with what was seen last, and
each step takes up what the one before it gave. -/
theorem repeatStep_from {place : Nat} {keeps : σ → Prop} {step : σ → Reader text (Option σ)}
    {bound : Nat} {start : σ} (kept : keeps start)
    (first : ReadsFrom ordered place (carried text start) (step start)
      (fun result => ∀ next, result = some next → keeps next) context state)
    (rest : ∀ next, keeps next →
      Reads ordered (carried text next) (Reader.repeatStep step bound next) keeps)
    (reached : carried text start = [] ∨ place ≤ state.cursor.offset) :
    ReadsFrom ordered place (carried text start) (Reader.repeatStep step (bound + 1) start) keeps
      context state := by
  intro before passed
  have result := first before passed
  unfold Reader.repeatStep
  cases run : step start context state with
  | error fault next =>
      rw [run] at result
      rw [run_bind_error run]
      exact result
  | ok value next =>
      rw [run] at result
      rw [run_bind_ok run]
      obtain ⟨moved, passed', told⟩ := result
      cases value with
      | none =>
          refine ⟨moved, ?_, kept⟩
          rcases reached with empty | here
          · rwa [empty]
          · exact passed.mono (Nat.le_trans here moved.forward)
      | some value =>
          refine .trans moved ?_
          exact (rest value (told value rfl)).from_sound context next moved.sound before passed'

/-- A repetition keeps what each step keeps. The induction is on the bound. -/
theorem repeatStep {keeps : σ → Prop} {step : σ → Reader text (Option σ)}
    (each : ∀ value, keeps value → Reads ordered (carried text value) (step value)
      fun result => ∀ next, result = some next → keeps next)
    (bound : Nat) (start : σ) (kept : keeps start) :
    Reads ordered (carried text start) (Reader.repeatStep step bound start) keeps := by
  induction bound generalizing start with
  | zero => exact .pure (.refl _) kept
  | succ bound ih =>
      constructor
      intro context state sound
      exact repeatStep_from kept ((each start kept).from_sound context state sound) ih
        (.inr (Nat.le_refl _))

/-- A loop whose first step has to pass some place, and that starts with nothing. -/
theorem loop_from {place : Nat} {start : σ} {step : σ → Reader text (Option σ)}
    (budget : 0 < context.budget) (empty : carried text start = [])
    (first : ReadsFrom ordered place [] (step start) Silent context state)
    (each : ∀ value, Reads ordered (carried text value) (step value) Silent) :
    ReadsFrom ordered place [] (Reader.loop start step) Silent context state := by
  obtain ⟨bound, bounded⟩ := Nat.exists_eq_succ_of_ne_zero (Nat.ne_of_gt budget)
  have rest : ∀ value, Silent value →
      Reads ordered (carried text value) (Reader.repeatStep step bound value) Silent :=
    repeatStep (fun value _ => have := each value; last (.refl _)) bound
  have whole : ReadsFrom ordered place (carried text start)
      (Reader.repeatStep step (bound + 1) start) Silent context state := by
    refine repeatStep_from trivial ?_ rest (.inl empty)
    rw [empty]
    exact first.imp (by simp)
  rw [empty, ← Nat.succ_eq_add_one, ← bounded] at whole
  exact whole

theorem loopKeeping (keeps : σ → Prop) {start : σ} {step : σ → Reader text (Option σ)}
    (each : ∀ value, keeps value → Reads ordered (carried text value) (step value)
      fun result => ∀ next, result = some next → keeps next)
    (kept : keeps start) (k : Kept ordered (carried text start) seen := by simp) :
    Reads ordered seen (Reader.loop start step) keeps := by
  have : Reads ordered (carried text start) (Reader.loop start step) keeps :=
    ⟨fun context state sound =>
      (repeatStep each context.budget start kept).from_sound context state sound⟩
  exact last k fun _ => id

/-- A loop reads if each of its steps does. -/
theorem loop {start : σ} {step : σ → Reader text (Option σ)}
    (each : ∀ value, Reads ordered (carried text value) (step value) Silent)
    (k : Kept ordered (carried text start) seen := by simp) :
    Reads ordered seen (Reader.loop start step) Silent :=
  loopKeeping Silent (fun value _ => have := each value; last) trivial k

end Reads

end Rules

instance pureBare_reads [Bare text α] {value : α} :
    Reads ordered [] (pure value : Reader text α) (· = value) :=
  .pure

instance pureNil_reads : Reads ordered [] (pure [] : Reader text (Found text)) (· = []) :=
  .pure

/-- A change of context that leaves the dialect and the budget. -/
class Inner (change : Context → Context) : Prop where
  dialect : ∀ context, (change context).dialect = context.dialect
  budget : ∀ context, (change context).budget = context.budget

/-- Contexts are changed by setting some of the flags that follow the dialect and the budget. -/
instance flags_inner {c₁ c₂ c₃ c₄ c₅ c₆ c₇ c₈ c₉ c₁₀ c₁₁ c₁₂ c₁₃ c₁₄ c₁₅ c₁₆ c₁₇ : Context → Bool} :
    Inner fun context =>
      ⟨context.dialect, context.budget, c₁ context, c₂ context, c₃ context, c₄ context, c₅ context,
        c₆ context, c₇ context, c₈ context, c₉ context, c₁₀ context, c₁₁ context, c₁₂ context,
        c₁₃ context, c₁₄ context, c₁₅ context, c₁₆ context, c₁₇ context⟩ :=
  ⟨fun _ => rfl, fun _ => rfl⟩

namespace Reads

variable [Carries text α] {seen : Found text} {tells : α → Prop}

/-- A reader goes the same way in two contexts with one dialect and one budget. -/
theorem from_inner {reader : Reader text α} (h : Reads ordered seen reader tells)
    (change : Context → Context) [inner : Inner change] {context : Context} {state : State text}
    (sound : Sound ordered context state) :
    ∀ before : Found text, Passed ordered state.cursor.offset (before ++ seen) →
      Outcome ordered before tells context state (reader (change context) state) := by
  intro before passed
  have back {next : State text} (moved : Moved ordered (change context) state next) :
      Moved ordered context state next :=
    ⟨moved.sound.of_same (inner.budget context).symm (inner.dialect context).symm rfl rfl rfl,
      moved.forward⟩
  have result := h.from_sound (change context) state
    (sound.of_same (inner.budget context) (inner.dialect context) rfl rfl rfl) before passed
  cases run : reader (change context) state with
  | ok value next =>
      rw [run] at result
      exact ⟨back result.1, result.2⟩
  | error fault next =>
      rw [run] at result
      exact back result

instance within {reader : Reader text α} {change : Context → Context} [Inner change]
    [h : Reads ordered seen reader tells] : Reads ordered seen (withReader change reader) tells :=
  ⟨fun _ _ sound => h.from_inner change sound⟩

/-- Whether or not an attempt succeeds, what was read before it is still there. -/
instance attempt {reader : Reader text α} [h : Reads ordered [] reader tells] :
    Reads ordered [] (Reader.attempt reader) fun result =>
      ∀ value, result = some value → tells value := by
  constructor
  intro context state sound before passed
  have result := h.from_inner (fun context => { context with silent := true }) sound before
    passed
  cases run : reader { context with silent := true } state with
  | ok value next =>
      rw [run] at result
      rw [run_attempt_ok run]
      obtain ⟨moved, passed', told⟩ := result
      refine ⟨moved, passed', ?_⟩
      rintro _ ⟨rfl⟩
      exact told
  | error fault next =>
      rw [run_attempt_error run]
      exact ⟨.refl sound, passed, nofun⟩

/-- An attempt that takes up what was seen, and something else that does so if it fails. -/
theorem attemptElse {β : Type} [Carries text β] {taken : Found text} {reader : Reader text β}
    {next : Option β → Reader text α} {tells' : β → Prop} (h : Reads ordered taken reader tells')
    (found : ∀ value, tells' value → Reads ordered (carried text value) (next (some value)) tells)
    (failed : Reads ordered seen (next none) tells) (k : Kept ordered taken seen := by simp) :
    Reads ordered seen (Reader.attempt reader >>= next) tells := by
  constructor
  intro context state sound before passed
  have result := h.from_inner (fun context => { context with silent := true }) sound before
    (passed.kept k)
  cases run : reader { context with silent := true } state with
  | ok value state' =>
      rw [run] at result
      rw [run_bind_ok (run_attempt_ok run)]
      obtain ⟨moved, passed', told⟩ := result
      refine .trans moved ?_
      exact (found value told).from_sound context state' moved.sound before passed'
  | error fault state' =>
      rw [run_bind_ok (run_attempt_error run)]
      exact failed.from_sound context state sound before passed

theorem trial {reader : Reader text α} (h : Reads ordered [] reader Silent) :
    Reads ordered [] (Reader.attempt reader) Silent :=
  last

instance lookahead {reader : Reader text Bool} :
    Reads ordered [] (Reader.lookahead reader) Silent := by
  constructor
  intro context state sound
  obtain ⟨value, run⟩ := run_lookahead reader context state
  exact .ok run (.refl sound) (Nat.le_refl _) (.refl _) trivial

/-- A change of the state that stays at the current token. -/
theorem modify {change : State text → State text}
    (token : ∀ state, (change state).token = state.token := by intro; rfl)
    (cursor : ∀ state, (change state).cursor = state.cursor := by intro; rfl)
    (length : ∀ state, (change state).length = state.length := by intro; rfl) :
    Reads ordered [] (modify change : Reader text Unit) Silent := by
  constructor
  intro context state sound
  have same : state.cursor.offset ≤ (change state).cursor.offset :=
    Nat.le_of_eq (by rw [cursor state])
  have sound' : Sound ordered context (change state) :=
    sound.of_same rfl rfl (token state) (cursor state) (length state)
  exact .ok rfl ⟨sound', same⟩ same (.refl _) trivial

instance seqLeft {β : Type} [Carries text β] {reader : Reader text α} {other : Reader text β}
    {tells' : β → Prop} [Reads ordered [] reader tells] [Reads ordered [] other tells'] :
    Reads ordered [] (reader <* other) tells := by
  rw [seqLeft_eq_bind]
  exact .bind fun value told => .bind fun _ _ => .pure (.before _ _) told

instance read : Reads ordered [] (read : Reader text Context) Silent :=
  ⟨fun _ _ sound => .ok rfl (.refl sound) (Nat.le_refl _) (.refl _) trivial⟩

theorem forEach {γ : Type} {list : List γ} {body : γ → Unit → Reader text (ForInStep Unit)}
    (each : ∀ item, Reads ordered [] (body item ()) Silent) :
    Reads ordered [] (forIn list () body) Silent := by
  induction list with
  | nil => exact .pure
  | cons item list ih =>
      rw [List.forIn_cons]
      have := each item
      refine .bind fun step _ => ?_
      cases step with
      | done => exact .pure
      | yield => exact .last

end Reads

end FieldUsage.Host
