import ReqPack.Remote.Wire

/-! # What the tokenizer makes of joined arguments

Every byte of a command line adds at most two to the weight of the tokenizer's state.
A byte that is lost or that cuts a token adds less, so that the tokens weigh what the
arguments weigh only when no argument was damaged.
-/

namespace ReqPack.Remote

open ReqPack.Data
open ReqPack.Data.Ascii

/-- Bytes outside quotes that do not stand for themselves. -/
def isSpecial (c : UInt8) : Bool :=
  c == backslash || c == singleQuote || c == doubleQuote || isSpace c

def tokenWeight (token : Bytes) : Nat := 2 * token.length + 1

def listWeight (tokens : List Bytes) : Nat := (tokens.map tokenWeight).sum

@[simp] theorem listWeight_nil : listWeight [] = 0 := rfl

@[simp] theorem listWeight_cons (token : Bytes) (tokens : List Bytes) :
    listWeight (token :: tokens) = tokenWeight token + listWeight tokens := by
  simp [listWeight]

@[simp] theorem listWeight_append (front back : List Bytes) :
    listWeight (front ++ back) = listWeight front + listWeight back := by
  simp [listWeight]

namespace Tokenizer

variable {state : Tokenizer} {c : UInt8} {command : Bytes}

def Outside (state : Tokenizer) : Prop := state.inSingleQuotes = false ∧ state.inDoubleQuotes = false

instance (state : Tokenizer) : Decidable state.Outside :=
  inferInstanceAs (Decidable (_ ∧ _))

/-- Between two arguments: outside quotes with no backslash pending. -/
def Ready (state : Tokenizer) : Prop := state.Outside ∧ state.escaping = false

def weight (state : Tokenizer) : Nat :=
  listWeight state.tokens + 2 * state.current.length + (if state.escaping then 1 else 0)

@[simp] theorem run_nil : state.run [] = state := rfl

@[simp] theorem run_cons : state.run (c :: command) = (state.step c).run command := rfl

@[simp] theorem run_append (front back : Bytes) :
    state.run (front ++ back) = (state.run front).run back := by
  simp [run]

@[simp] theorem push_escaping : state.push.escaping = state.escaping := by
  simp only [push]
  split <;> rfl

@[simp] theorem push_inSingleQuotes : state.push.inSingleQuotes = state.inSingleQuotes := by
  simp only [push]
  split <;> rfl

@[simp] theorem push_inDoubleQuotes : state.push.inDoubleQuotes = state.inDoubleQuotes := by
  simp only [push]
  split <;> rfl

theorem push_weight_le : state.push.weight ≤ state.weight + 1 := by
  simp only [push]
  split
  · omega
  · simp [weight, tokenWeight]
    omega

theorem step_escaping (pending : state.escaping = true) :
    state.step c = { state with current := state.current ++ [c], escaping := false } := by
  rw [step, if_pos pending]

theorem step_plain (ordinary : isSpecial c = false) (settled : state.escaping = false) :
    state.step c = { state with current := state.current ++ [c] } := by
  simp only [isSpecial, Bool.or_eq_false_iff] at ordinary
  simp [step, settled, ordinary]

theorem step_weight_le : (state.step c).weight ≤ state.weight + 2 := by
  have pushed := @push_weight_le state
  simp only [step]
  split
  · rename_i pending
    simp [weight, pending]
    omega
  · rename_i settled
    split
    · simp [weight, settled]
    · split
      · simp [weight]
      · split
        · simp [weight]
        · split
          · omega
          · simp [weight]
            omega

/-- A special byte outside quotes is lost, kept back or cuts a token. -/
theorem step_weight_lt (outside : state.Outside) (special : isSpecial c = true) :
    (state.step c).weight < state.weight + 2 := by
  have pushed := @push_weight_le state
  simp only [isSpecial, Bool.or_eq_true] at special
  simp only [step, outside.1, outside.2]
  split
  · rename_i pending
    simp [weight, pending]
    omega
  · rename_i settled
    split
    · simp [weight, settled]
    · split
      · simp [weight]
      · split
        · simp [weight]
        · split
          · omega
          · simp_all

theorem run_weight_le : (state.run command).weight ≤ state.weight + 2 * command.length := by
  induction command generalizing state with
  | nil => simp
  | cons c command ih =>
      have first := @step_weight_le state c
      have rest := @ih (state.step c)
      simp only [run_cons, List.length_cons]
      omega

/-- Only a quotation mark changes what is quoted. -/
theorem step_outside (outside : state.Outside) (single : c ≠ singleQuote) (double : c ≠ doubleQuote) :
    (state.step c).Outside := by
  simp only [Outside] at outside ⊢
  simp only [step]
  split
  · exact outside
  · split
    · exact outside
    · simp [single, double]
      split <;> simp [outside]

theorem run_outside (outside : state.Outside) (single : singleQuote ∉ command)
    (double : doubleQuote ∉ command) : (state.run command).Outside := by
  induction command generalizing state with
  | nil => exact outside
  | cons c command ih =>
      simp only [List.mem_cons, not_or] at single double
      exact ih (step_outside outside (Ne.symm single.1) (Ne.symm double.1)) single.2 double.2

theorem run_weight_lt (outside : state.Outside) (special : command.any isSpecial = true) :
    (state.run command).weight < state.weight + 2 * command.length := by
  induction command generalizing state with
  | nil => simp at special
  | cons c command ih =>
      simp only [run_cons, List.length_cons]
      cases damaged : isSpecial c with
      | true =>
          have first := step_weight_lt outside damaged
          have rest := @run_weight_le (state.step c) command
          omega
      | false =>
          have first := @step_weight_le state c
          have ordinary := damaged
          simp only [isSpecial, Bool.or_eq_false_iff, beq_eq_false_iff_ne] at ordinary
          have rest := ih (step_outside outside ordinary.1.1.2 ordinary.1.2)
            (by simpa [damaged] using special)
          omega

theorem run_plain (ordinary : command.any isSpecial = false) (settled : state.escaping = false) :
    state.run command = { state with current := state.current ++ command } := by
  induction command generalizing state with
  | nil => simp
  | cons c command ih =>
      simp only [List.any_cons, Bool.or_eq_false_iff] at ordinary
      rw [run_cons, step_plain ordinary.1 settled,
        @ih { state with current := state.current ++ [c] } ordinary.2 settled]
      simp

/-- A blank between two arguments. -/
theorem step_space_ready (outside : state.Outside) : (state.step space).Ready := by
  refine ⟨step_outside outside (by decide) (by decide), ?_⟩
  cases pending : state.escaping with
  | true => rw [step_escaping pending]
  | false => simp [step, pending, outside.1, outside.2, show isSpace space = true by decide,
      show (space == backslash) = false by decide, show (space == singleQuote) = false by decide,
      show (space == doubleQuote) = false by decide]

theorem step_space_weight_le (outside : state.Outside) :
    (state.step space).weight ≤ state.weight + 1 := by
  cases pending : state.escaping with
  | true =>
      rw [step_escaping pending]
      simp [weight, pending]
      omega
  | false =>
      have lost := step_weight_lt outside (show isSpecial space = true by decide)
      omega

theorem step_space_ready_eq (ready : state.Ready) : state.step space = state.push := by
  simp [step, ready.2, ready.1.1, ready.1.2, show isSpace space = true by decide,
    show (space == backslash) = false by decide, show (space == singleQuote) = false by decide,
    show (space == doubleQuote) = false by decide]

end Tokenizer

/-! ## Pieces of a command line -/

/-- Text that stands for an argument, and whether the argument comes through. -/
structure Piece where
  text : Bytes
  value : Bytes
  intact : Bool

namespace Piece

/-- Outside quotes a piece never weighs more than its argument, and less when the
argument does not come through. -/
structure Measured (piece : Piece) : Prop where
  weight : ∀ {state : Tokenizer}, state.Ready → (state.run piece.text).Outside →
    (state.run piece.text).weight + (if piece.intact then 0 else 1) ≤
      state.weight + 2 * piece.value.length
  sound : piece.intact = true → ∀ {state : Tokenizer}, state.Ready →
    state.run piece.text = { state with current := state.current ++ piece.value }

/-- A piece that closes every quotation it opens. -/
def Closed (piece : Piece) : Prop :=
  ∀ {state : Tokenizer}, state.Ready → (state.run piece.text).Outside

/-- A piece that does not end a quotation opened before it. -/
def Absorbed (piece : Piece) : Prop :=
  ∀ {state : Tokenizer}, ¬ state.Outside → state.escaping = false → ¬ (state.run piece.text).Outside

def joinTexts (pieces : List Piece) : Bytes := [space].intercalate (pieces.map Piece.text)

theorem joinTexts_cons_cons (first second : Piece) (rest : List Piece) :
    joinTexts (first :: second :: rest) = first.text ++ space :: joinTexts (second :: rest) := by
  simp [joinTexts, List.intercalate_cons_cons]

theorem joinTexts_singleton (piece : Piece) : joinTexts [piece] = piece.text := by
  simp [joinTexts, List.intercalate]

end Piece

namespace Tokenizer

variable {state : Tokenizer}

theorem finish_of_not_outside (inside : ¬ state.Outside) : state.finish = [] := by
  simp only [Outside, not_and_or, Bool.not_eq_false] at inside
  simp only [finish]
  rcases inside with single | double
  · simp [single]
  · simp [double]

theorem step_space_inside (inside : ¬ state.Outside) :
    ¬ (state.step space).Outside ∧ (state.step space).escaping = false := by
  simp only [Outside, not_and_or, Bool.not_eq_false] at inside ⊢
  cases pending : state.escaping with
  | true =>
      rw [step_escaping pending]
      exact ⟨inside, rfl⟩
  | false =>
      rcases inside with quoted | quoted <;>
        simp [step, pending, quoted, show (space == backslash) = false by decide,
          show (space == singleQuote) = false by decide, show (space == doubleQuote) = false by decide]

/-- A quotation left open swallows the rest of the line. -/
theorem finish_absorbed {pieces : List Piece} (absorbed : ∀ piece ∈ pieces, piece.Absorbed)
    (inside : ¬ state.Outside) (settled : state.escaping = false) :
    (state.run (Piece.joinTexts pieces)).finish = [] := by
  induction pieces generalizing state with
  | nil => exact finish_of_not_outside inside
  | cons piece pieces ih =>
      have first := absorbed piece List.mem_cons_self inside settled
      cases pieces with
      | nil =>
          rw [Piece.joinTexts_singleton]
          exact finish_of_not_outside first
      | cons next rest =>
          rw [Piece.joinTexts_cons_cons, run_append, run_cons]
          obtain ⟨still, finished⟩ := step_space_inside first
          exact ih (fun later member => absorbed later (List.mem_cons_of_mem _ member)) still finished

theorem finish_weight_le (outside : state.Outside) :
    state.finish = [] ∨ listWeight state.finish ≤ state.weight + 1 := by
  simp only [finish, outside.1, outside.2, Bool.or_false]
  cases pending : state.escaping with
  | true => exact Or.inl rfl
  | false =>
      right
      have pushed := @push_weight_le state
      simp only [weight, push_escaping, pending] at pushed ⊢
      simp only [Bool.false_eq_true, if_false] at pushed ⊢
      omega

/-- The tokens of a line of pieces weigh at most what the arguments weigh. -/
theorem finish_pieces_weight {pieces : List Piece} (present : pieces ≠ [])
    (measured : ∀ piece ∈ pieces, piece.Measured)
    (ordered : pieces.Pairwise fun first later => first.Closed ∨ later.Absorbed) (ready : state.Ready) :
    (state.run (Piece.joinTexts pieces)).finish = [] ∨
      listWeight (state.run (Piece.joinTexts pieces)).finish +
          (if pieces.all Piece.intact then 0 else 1) ≤
        state.weight + listWeight (pieces.map Piece.value) := by
  induction pieces generalizing state with
  | nil => exact absurd rfl present
  | cons piece pieces ih =>
      have behind := (List.pairwise_cons.mp ordered).1
      have weighed := (measured piece List.mem_cons_self).weight ready
      cases pieces with
      | nil =>
          rw [Piece.joinTexts_singleton]
          by_cases outside : (state.run piece.text).Outside
          · rcases finish_weight_le outside with empty | bounded
            · exact Or.inl empty
            · right
              have bound := weighed outside
              simp [tokenWeight]
              omega
          · exact Or.inl (finish_of_not_outside outside)
      | cons next rest =>
          rw [Piece.joinTexts_cons_cons, run_append, run_cons]
          by_cases outside : (state.run piece.text).Outside
          · have bound := weighed outside
            have blank := step_space_weight_le outside
            rcases @ih ((state.run piece.text).step space) (by simp)
              (fun later member => measured later (List.mem_cons_of_mem _ member))
              (List.pairwise_cons.mp ordered).2 (step_space_ready outside) with empty | bounded
            · exact Or.inl empty
            · right
              have losses : (if (piece :: next :: rest).all Piece.intact then 0 else 1) ≤
                  (if piece.intact then 0 else 1) + (if (next :: rest).all Piece.intact then 0 else 1) := by
                rw [List.all_cons]
                cases piece.intact <;> cases (next :: rest).all Piece.intact <;> decide
              rw [List.map_cons, listWeight_cons, tokenWeight]
              omega
          · left
            obtain ⟨still, finished⟩ := step_space_inside outside
            refine finish_absorbed (fun later member => ?_) still finished
            exact (behind later member).resolve_left fun closed => outside (closed ready)

/-- Arguments that all come through are the tokens. -/
theorem finish_pieces_intact {pieces : List Piece} (present : pieces ≠ [])
    (measured : ∀ piece ∈ pieces, piece.Measured) (named : ∀ piece ∈ pieces, piece.value ≠ [])
    (intact : pieces.all Piece.intact = true) (ready : state.Ready) (fresh : state.current = []) :
    (state.run (Piece.joinTexts pieces)).finish = state.tokens ++ pieces.map Piece.value := by
  induction pieces generalizing state with
  | nil => exact absurd rfl present
  | cons piece pieces ih =>
      simp only [List.all_cons, Bool.and_eq_true] at intact
      have read := (measured piece List.mem_cons_self).sound intact.1 ready
      have filled := named piece List.mem_cons_self
      cases pieces with
      | nil =>
          rw [Piece.joinTexts_singleton, read]
          simp [finish, push, ready.1.1, ready.1.2, ready.2, fresh, filled]
      | cons next rest =>
          have between : ({ state with current := state.current ++ piece.value } : Tokenizer).Ready := ready
          rw [Piece.joinTexts_cons_cons, run_append, run_cons, read, step_space_ready_eq between]
          rw [ih (by simp) (fun later member => measured later (List.mem_cons_of_mem _ member))
            (fun later member => named later (List.mem_cons_of_mem _ member)) intact.2
            ⟨by simpa [Outside] using ready.1, by simpa using ready.2⟩ (by simp [push, fresh, filled])]
          simp [push, fresh, filled]

end Tokenizer

/-- A line is cut into tokens of the arguments' weight exactly when all arguments come
through. -/
theorem tokenize_pieces_iff {pieces : List Piece} (present : pieces ≠ [])
    (measured : ∀ piece ∈ pieces, piece.Measured) (named : ∀ piece ∈ pieces, piece.value ≠ [])
    (ordered : pieces.Pairwise fun first later => first.Closed ∨ later.Absorbed)
    {expected : List Bytes} (heavy : listWeight expected = listWeight (pieces.map Piece.value)) :
    tokenizeCommandLine (Piece.joinTexts pieces) = expected ↔
      pieces.all Piece.intact = true ∧ pieces.map Piece.value = expected := by
  have ready : Tokenizer.start.Ready := ⟨⟨rfl, rfl⟩, rfl⟩
  have intactTokens (intact : pieces.all Piece.intact = true) :
      tokenizeCommandLine (Piece.joinTexts pieces) = pieces.map Piece.value :=
    Tokenizer.finish_pieces_intact present measured named intact ready rfl
  constructor
  · intro same
    have intact : pieces.all Piece.intact = true := by
      rcases Tokenizer.finish_pieces_weight present measured ordered ready with empty | bounded
      · have none : expected = [] := same.symm.trans empty
        obtain ⟨piece, rest, rfl⟩ := List.exists_cons_of_ne_nil present
        rw [none, List.map_cons, listWeight_cons, tokenWeight, listWeight_nil] at heavy
        omega
      · rw [show (Tokenizer.start.run (Piece.joinTexts pieces)).finish = expected from same, heavy] at bounded
        by_contra damaged
        rw [if_neg damaged] at bounded
        have bare : Tokenizer.start.weight = 0 := by rfl
        rw [bare] at bounded
        omega
    exact ⟨intact, (intactTokens intact).symm.trans same⟩
  · intro holds
    exact (intactTokens holds.1).trans holds.2

end ReqPack.Remote
