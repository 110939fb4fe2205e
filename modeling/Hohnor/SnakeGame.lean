import Hohnor.TransitionRuns
import Mathlib

/-!
# The snake game

`SnakeGame` of example/SnakeGame/snake_game.cpp: its state, the keys, and the
timer of the event loop, in any order.  What the two distributions draw comes
with the event that asks for it; the drawing on the terminal is left out.

A snake moves by a new head and without its last segment, so it stays a path
without crossings inside the walls.  The keys are compared with the direction
of the last move, and not with the last key, so that no two keys between two
moves turn the head into the neck.

`generateFood` draws until it finds a free cell.  With the last food the snake
fills the field, and then it does not return.
-/

namespace Hohnor

open TransitionRuns

@[ext] structure Point where
  x : Int
  y : Int
deriving DecidableEq, Repr

inductive Direction where
  | UP
  | DOWN
  | LEFT
  | RIGHT
deriving DecidableEq, Repr

def gameWidth_ : Int :=
  30

def gameHeight_ : Int :=
  15

/-- The point is inside of the walls. -/
def Point.Inside (p : Point) : Prop :=
  1 ≤ p.x ∧ p.x ≤ gameWidth_ - 2 ∧ 1 ≤ p.y ∧ p.y ≤ gameHeight_ - 2

instance (p : Point) : Decidable p.Inside :=
  inferInstanceAs (Decidable (_ ∧ _))

/-- What `widthDist_` and `heightDist_` draw. -/
abbrev Draw := { p : Point // p.Inside }

structure SnakeGame where
  snake_ : List Point
  food_ : Point
  direction_ : Direction
  nextDirection_ : Direction
  score_ : Int
  gameOver_ : Bool
  paused_ : Bool
deriving DecidableEq, Repr

/-- A key, or the timer fires; the draws are for the food. -/
inductive SnakeEvent where
  | key (key : Char) (draws : List Draw)
  | timer (draws : List Draw)

def Direction.opposite : Direction → Direction
  | .UP => .DOWN
  | .DOWN => .UP
  | .LEFT => .RIGHT
  | .RIGHT => .LEFT

/-- The cell next to a point. -/
def Point.next (p : Point) : Direction → Point
  | .UP => { p with y := p.y - 1 }
  | .DOWN => { p with y := p.y + 1 }
  | .LEFT => { p with x := p.x - 1 }
  | .RIGHT => { p with x := p.x + 1 }

namespace SnakeGame

def isSnakePosition (snake : List Point) (pos : Point) : Bool :=
  snake.any fun segment => segment = pos

/-- The loop of generateFood; none as long as it goes on drawing. -/
def generateFood (snake : List Point) : List Draw → Option Point
  | [] => none
  | draw :: draws =>
      if isSnakePosition snake draw.val then generateFood snake draws
      else some draw.val

/-- The segments in the middle that a game starts with. -/
def firstSnake : List Point :=
  [⟨gameWidth_ / 2, gameHeight_ / 2⟩, ⟨gameWidth_ / 2 - 1, gameHeight_ / 2⟩,
    ⟨gameWidth_ / 2 - 2, gameHeight_ / 2⟩]

/-- The constructor. -/
def create (draws : List Draw) : Option SnakeGame :=
  (generateFood firstSnake draws).map fun food =>
    { snake_ := firstSnake
      food_ := food
      direction_ := .RIGHT
      nextDirection_ := .RIGHT
      score_ := 0
      gameOver_ := false
      paused_ := false }

def restart (_s : SnakeGame) (draws : List Draw) : Option SnakeGame :=
  create draws

/-- A key for a direction. -/
def turn (s : SnakeGame) (against next : Direction) : SnakeGame :=
  if s.direction_ ≠ against then { s with nextDirection_ := next } else s

/-- `endLoop` of the key q is left to the event loop. -/
def onKeyPress (s : SnakeGame) (key : Char) (draws : List Draw) :
    Option SnakeGame :=
  match key with
  | 'q' | 'Q' => some { s with gameOver_ := true }
  | 'p' | 'P' => some { s with paused_ := !s.paused_ }
  | 'r' | 'R' => if s.gameOver_ then s.restart draws else some s
  | 'w' | 'W' => some (s.turn .DOWN .UP)
  | 's' | 'S' => some (s.turn .UP .DOWN)
  | 'a' | 'A' => some (s.turn .RIGHT .LEFT)
  | 'd' | 'D' => some (s.turn .LEFT .RIGHT)
  | _ => some s

/-- The cell that the head moves to. -/
def newHead (s : SnakeGame) : Point :=
  (s.snake_.headD ⟨0, 0⟩).next s.nextDirection_

def hitsWall (p : Point) : Bool :=
  p.x ≤ 0 || p.x ≥ gameWidth_ - 1 || p.y ≤ 0 || p.y ≥ gameHeight_ - 1

def gameLoop (s : SnakeGame) (draws : List Draw) : Option SnakeGame :=
  if s.gameOver_ then some s
  else
    let newHead := s.newHead
    let s := { s with direction_ := s.nextDirection_ }
    if hitsWall newHead then some { s with gameOver_ := true }
    else if isSnakePosition s.snake_ newHead then
      some { s with gameOver_ := true }
    else
      let s := { s with snake_ := newHead :: s.snake_ }
      if newHead = s.food_ then
        (generateFood s.snake_ draws).map fun food =>
          { s with score_ := s.score_ + 1, food_ := food }
      else some { s with snake_ := s.snake_.dropLast }

/-- The timer's callback looks at the two flags first. -/
def step (s : SnakeGame) : SnakeEvent → Option SnakeGame
  | .key key draws => s.onKeyPress key draws
  | .timer draws =>
      if !s.gameOver_ && !s.paused_ then s.gameLoop draws else some s

/-- Two cells with a side in common. -/
def Adjacent (p q : Point) : Prop :=
  ∃ d, p = q.next d

/-- What holds between two events. -/
structure Sound (s : SnakeGame) : Prop where
  path : s.snake_.IsChain Adjacent
  apart : s.snake_.Nodup
  inside : ∀ p ∈ s.snake_, p.Inside
  length : s.snake_.length = s.score_ + 3
  food_inside : s.food_.Inside
  food_free : s.food_ ∉ s.snake_
  forward : s.nextDirection_ ≠ s.direction_.opposite
  heading :
    s.gameOver_ = false →
      ∃ neck body, s.snake_ = neck.next s.direction_ :: neck :: body

theorem isSnakePosition_iff
    (snake : List Point) (pos : Point) :
    isSnakePosition snake pos = true ↔ pos ∈ snake := by
  simp [isSnakePosition]

theorem generateFood_eq
    {snake : List Point} {draws : List Draw} {food : Point}
    (h : generateFood snake draws = some food) :
    food.Inside ∧ food ∉ snake := by
  induction draws with
  | nil => cases h
  | cons draw draws ih =>
      rw [generateFood] at h
      split at h
      next => exact ih h
      next hfree =>
        cases h
        exact ⟨draw.property, fun hmem =>
          hfree ((isSnakePosition_iff snake draw.val).mpr hmem)⟩

theorem firstSnake_path :
    firstSnake.IsChain Adjacent :=
  List.IsChain.cons_cons ⟨.RIGHT, rfl⟩
    (List.IsChain.cons_cons ⟨.RIGHT, rfl⟩ (List.IsChain.singleton _))

theorem create_sound
    {draws : List Draw} {s : SnakeGame} (h : create draws = some s) :
    s.Sound := by
  obtain ⟨food, hfood, rfl⟩ := Option.map_eq_some_iff.mp h
  obtain ⟨hinside, hfree⟩ := generateFood_eq hfood
  have hapart : firstSnake.Nodup := by decide
  have hcells : ∀ p ∈ firstSnake, p.Inside := by decide
  exact
    { path := firstSnake_path
      apart := hapart
      inside := hcells
      length := rfl
      food_inside := hinside
      food_free := hfree
      forward := Direction.noConfusion
      heading := fun _ => ⟨⟨14, 7⟩, [⟨13, 7⟩], rfl⟩ }

/-- The keys, whichever of the two cases of a letter. -/
inductive KeyEffect (s : SnakeGame) (draws : List Draw) : SnakeGame → Prop
  | quit : KeyEffect s draws { s with gameOver_ := true }
  | pause : KeyEffect s draws { s with paused_ := !s.paused_ }
  | restart {s'} (h : s.restart draws = some s') : KeyEffect s draws s'
  | turn (next : Direction) : KeyEffect s draws (s.turn next.opposite next)
  | none : KeyEffect s draws s

theorem onKeyPress_effect
    {s s' : SnakeGame} {key : Char} {draws : List Draw}
    (h : s.onKeyPress key draws = some s') :
    KeyEffect s draws s' := by
  have hrestart :
      (if s.gameOver_ then s.restart draws else some s) = some s' →
        KeyEffect s draws s' := by
    intro h
    split at h
    · exact .restart h
    · cases h
      exact .none
  rw [onKeyPress.eq_def] at h
  split at h
  case h_5 | h_6 => exact hrestart h
  all_goals cases h
  case h_1 | h_2 => exact .quit
  case h_3 | h_4 => exact .pause
  case h_7 | h_8 => exact .turn .UP
  case h_9 | h_10 => exact .turn .DOWN
  case h_11 | h_12 => exact .turn .LEFT
  case h_13 | h_14 => exact .turn .RIGHT
  case h_15 => exact .none

/-- A key turns the snake aside, if at all. -/
theorem Sound.turn
    {s : SnakeGame} (hs : s.Sound) (next : Direction) :
    (s.turn next.opposite next).Sound := by
  rw [SnakeGame.turn]
  split
  next hfree =>
    refine { hs with forward := ?_ }
    intro hback
    have hback' : next = s.direction_.opposite := hback
    refine hfree ?_
    rw [hback']
    cases s.direction_ <;> rfl
  next => exact hs

theorem Sound.onKeyPress
    {s s' : SnakeGame} (hs : s.Sound) {key : Char} {draws : List Draw}
    (h : s.onKeyPress key draws = some s') :
    s'.Sound := by
  cases onKeyPress_effect h with
  | quit =>
      exact { hs with heading := fun hover => Bool.noConfusion hover }
  | pause => exact { hs with }
  | restart hrestart => exact create_sound hrestart
  | turn next => exact hs.turn next
  | none => exact hs

theorem ne_opposite
    (d : Direction) :
    d ≠ d.opposite := by
  cases d <;> decide

theorem next_next_ne
    (p : Point) {d d' : Direction} (hforward : d' ≠ d.opposite) :
    (p.next d).next d' ≠ p := by
  intro hback
  rw [Point.ext_iff] at hback
  cases d <;> cases d' <;> simp [Point.next] at hback
  all_goals first | omega | exact hforward rfl

/-- The head does not move into the neck. -/
theorem Sound.newHead_ne_neck
    {s : SnakeGame} (hs : s.Sound) (hplays : s.gameOver_ = false) :
    s.snake_[1]? ≠ some s.newHead := by
  obtain ⟨neck, body, hsnake⟩ := hs.heading hplays
  rw [newHead, hsnake]
  intro hneck
  exact next_next_ne neck hs.forward (Option.some.inj hneck).symm

theorem hitsWall_iff
    (p : Point) :
    hitsWall p = true ↔ ¬ p.Inside := by
  simp only [hitsWall, Point.Inside, Bool.or_eq_true, decide_eq_true_iff]
  omega

/-- What a move makes of a game that goes on. -/
inductive MoveEffect (s : SnakeGame) (draws : List Draw) : SnakeGame → Prop
  | crash
      (hcrash : ¬ s.newHead.Inside ∨ s.newHead ∈ s.snake_) :
      MoveEffect s draws
        { s with direction_ := s.nextDirection_, gameOver_ := true }
  | eat
      (hinside : s.newHead.Inside) (hfree : s.newHead ∉ s.snake_)
      (hfood : s.newHead = s.food_) (food : Point)
      (hgenerate : generateFood (s.newHead :: s.snake_) draws = some food) :
      MoveEffect s draws
        { s with
          direction_ := s.nextDirection_
          snake_ := s.newHead :: s.snake_
          score_ := s.score_ + 1
          food_ := food }
  | move
      (hinside : s.newHead.Inside) (hfree : s.newHead ∉ s.snake_)
      (hfood : s.newHead ≠ s.food_) :
      MoveEffect s draws
        { s with
          direction_ := s.nextDirection_
          snake_ := (s.newHead :: s.snake_).dropLast }

theorem gameLoop_effect
    {s s' : SnakeGame} {draws : List Draw} (hplays : s.gameOver_ = false)
    (h : s.gameLoop draws = some s') :
    MoveEffect s draws s' := by
  rw [gameLoop, if_neg (by rw [hplays]; exact Bool.false_ne_true)] at h
  dsimp only at h
  split at h
  next hwall =>
    cases h
    exact .crash (Or.inl ((hitsWall_iff s.newHead).mp hwall))
  next hwall =>
    have hinside : s.newHead.Inside :=
      not_not.mp (mt (hitsWall_iff s.newHead).mpr hwall)
    split at h
    next hself =>
      cases h
      exact .crash (Or.inr ((isSnakePosition_iff _ _).mp hself))
    next hself =>
      have hfree := mt (isSnakePosition_iff s.snake_ s.newHead).mpr hself
      split at h
      next hfood =>
        obtain ⟨food, hgenerate, rfl⟩ := Option.map_eq_some_iff.mp h
        exact .eat hinside hfree hfood food hgenerate
      next hfood =>
        cases h
        exact .move hinside hfree hfood

/-- The snake with its new head. -/
theorem Sound.grown
    {s : SnakeGame} (hs : s.Sound) (hplays : s.gameOver_ = false)
    (hinside : s.newHead.Inside) (hfree : s.newHead ∉ s.snake_) :
    (s.newHead :: s.snake_).IsChain Adjacent ∧
      (s.newHead :: s.snake_).Nodup ∧
      (∀ p ∈ s.newHead :: s.snake_, p.Inside) ∧
      ∃ head neck body, s.snake_ = head :: neck :: body ∧
        s.newHead = head.next s.nextDirection_ := by
  obtain ⟨neck, body, hsnake⟩ := hs.heading hplays
  have hhead : s.newHead = (neck.next s.direction_).next s.nextDirection_ := by
    rw [newHead, hsnake, List.headD_cons]
  have hpath := hs.path
  refine ⟨?_, List.nodup_cons.mpr ⟨hfree, hs.apart⟩, ?_,
    _, neck, body, hsnake, hhead⟩
  · rw [hsnake] at hpath ⊢
    exact List.IsChain.cons_cons ⟨_, hhead⟩ hpath
  · intro p hp
    rcases List.mem_cons.mp hp with rfl | hp
    · exact hinside
    · exact hs.inside p hp

theorem Sound.gameLoop
    {s s' : SnakeGame} (hs : s.Sound) (hplays : s.gameOver_ = false)
    {draws : List Draw} (h : s.gameLoop draws = some s') :
    s'.Sound := by
  have hlength := hs.length
  cases gameLoop_effect hplays h with
  | crash hcrash =>
      exact
        { hs with
          forward := ne_opposite s.nextDirection_
          heading := fun hover => Bool.noConfusion hover }
  | eat hinside hfree hfood food hgenerate =>
      obtain ⟨hpath, hapart, hcells, head, neck, body, hsnake, hhead⟩ :=
        hs.grown hplays hinside hfree
      obtain ⟨hfoodInside, hfoodFree⟩ := generateFood_eq hgenerate
      exact
        { path := hpath
          apart := hapart
          inside := hcells
          length := by
            rw [List.length_cons]
            push_cast
            omega
          food_inside := hfoodInside
          food_free := hfoodFree
          forward := ne_opposite s.nextDirection_
          heading := fun _ => ⟨head, neck :: body, by
            simp only [hhead, hsnake]⟩ }
  | move hinside hfree hfood =>
      obtain ⟨hpath, hapart, hcells, head, neck, body, hsnake, hhead⟩ :=
        hs.grown hplays hinside hfree
      exact
        { path := hpath.dropLast
          apart := hapart.sublist (List.dropLast_sublist _)
          inside := fun p hp => hcells p (List.dropLast_subset _ hp)
          length := by
            simp only [List.length_dropLast, List.length_cons]
            exact hlength
          food_inside := hs.food_inside
          food_free := by
            intro hmem
            rcases List.mem_cons.mp (List.dropLast_subset _ hmem) with h | h
            · exact hfood h.symm
            · exact hs.food_free h
          forward := ne_opposite s.nextDirection_
          heading := fun _ => ⟨head, (neck :: body).dropLast, by
            simp only [hhead, hsnake]
            rfl⟩ }

theorem Sound.step
    {s s' : SnakeGame} (hs : s.Sound) {e : SnakeEvent}
    (h : s.step e = some s') :
    s'.Sound := by
  cases e with
  | key key draws => exact hs.onKeyPress h
  | timer draws =>
      rw [SnakeGame.step] at h
      split at h
      next hruns =>
        rw [Bool.and_eq_true, Bool.not_eq_true'] at hruns
        exact hs.gameLoop hruns.1 h
      next =>
        cases h
        exact hs

theorem run_sound
    {draws : List Draw} {s₀ s : SnakeGame} {events : List SnakeEvent}
    (hcreate : create draws = some s₀)
    (hrun : run SnakeGame.step s₀ events = some s) :
    s.Sound :=
  invariant_of_run (I := Sound) (P := fun _ => True)
    (fun _ _ _ hs _ hstep => hs.step hstep)
    (create_sound hcreate) (fun _ _ => trivial) hrun

/-- In every game, whatever is pressed and drawn: the snake is a path without
crossings inside of the walls, three segments longer than the score; the food
is inside of them and not on the snake; and no keys turn the head into the
neck. -/
theorem snake_is_path
    {draws : List Draw} {s₀ s : SnakeGame} {events : List SnakeEvent}
    (hcreate : create draws = some s₀)
    (hrun : run SnakeGame.step s₀ events = some s) :
    s.snake_.IsChain Adjacent ∧ s.snake_.Nodup ∧
      (∀ p ∈ s.snake_, p.Inside) ∧ s.snake_.length = s.score_ + 3 ∧
      s.food_.Inside ∧ s.food_ ∉ s.snake_ ∧
      (s.gameOver_ = false → s.snake_[1]? ≠ some s.newHead) := by
  have hs := run_sound hcreate hrun
  exact
    ⟨hs.path, hs.apart, hs.inside, hs.length, hs.food_inside,
      hs.food_free, hs.newHead_ne_neck⟩

/-- Two keys between two moves that would turn the snake around. -/
def sampleEvents : List SnakeEvent :=
  [.timer [], .key 'w' [], .key 'a' [], .timer []]

theorem snake_is_path_turn :
    ∃ s₀ s, create [⟨⟨20, 7⟩, by decide⟩] = some s₀ ∧
      run SnakeGame.step s₀ sampleEvents = some s ∧
      (s.snake_.IsChain Adjacent ∧ s.snake_.Nodup ∧
        (∀ p ∈ s.snake_, p.Inside) ∧ s.snake_.length = s.score_ + 3 ∧
        s.food_.Inside ∧ s.food_ ∉ s.snake_ ∧
        (s.gameOver_ = false → s.snake_[1]? ≠ some s.newHead)) :=
  ⟨_, _, rfl, rfl, @snake_is_path [⟨⟨20, 7⟩, by decide⟩] _ _ sampleEvents
    rfl rfl⟩

/-- The cells of the field. -/
noncomputable def field : Finset (Int × Int) :=
  Finset.Icc 1 (gameWidth_ - 2) ×ˢ Finset.Icc 1 (gameHeight_ - 2)

theorem card_field :
    field.card = 364 := by
  rw [field, Finset.card_product, Int.card_Icc, Int.card_Icc]
  rfl

theorem mem_field
    (p : Point) :
    (p.x, p.y) ∈ field ↔ p.Inside := by
  simp only [field, Finset.mem_product, Finset.mem_Icc, Point.Inside]
  tauto

theorem length_le_field
    {l : List Point} (hapart : l.Nodup) (hinside : ∀ p ∈ l, p.Inside) :
    l.length ≤ 364 ∧
      (l.length < 364 → ∃ p : Point, p.Inside ∧ p ∉ l) := by
  have hinjective : Function.Injective fun p : Point => (p.x, p.y) := by
    intro p q h
    exact Point.ext (congrArg Prod.fst h) (congrArg Prod.snd h)
  have hcard :
      (l.map fun p => (p.x, p.y)).toFinset.card = l.length := by
    rw [List.toFinset_card_of_nodup (hapart.map hinjective),
      List.length_map]
  have hsubset : (l.map fun p => (p.x, p.y)).toFinset ⊆ field := by
    intro cell hcell
    obtain ⟨p, hp, rfl⟩ := List.mem_map.mp (List.mem_toFinset.mp hcell)
    exact (mem_field p).mpr (hinside p hp)
  have hle := Finset.card_le_card hsubset
  rw [hcard, card_field] at hle
  refine ⟨hle, fun hlt => ?_⟩
  rw [← hcard, ← card_field] at hlt
  obtain ⟨⟨x, y⟩, hcell, hfree⟩ :=
    Finset.exists_mem_notMem_of_card_lt_card hlt
  refine ⟨⟨x, y⟩, (mem_field ⟨x, y⟩).mp hcell, fun hmem => ?_⟩
  exact hfree (List.mem_toFinset.mpr (List.mem_map.mpr ⟨_, hmem, rfl⟩))

/-- Cells that are apart leave a cell free exactly when they are fewer. -/
theorem exists_free_iff
    {l : List Point} (hapart : l.Nodup) (hinside : ∀ p ∈ l, p.Inside) :
    (∃ p : Point, p.Inside ∧ p ∉ l) ↔ l.length < 364 := by
  refine ⟨?_, (length_le_field hapart hinside).2⟩
  rintro ⟨p, hp, hfree⟩
  refine (length_le_field (List.nodup_cons.mpr ⟨hfree, hapart⟩) ?_).1
  intro q hq
  rcases List.mem_cons.mp hq with rfl | hq
  · exact hp
  · exact hinside q hq

/-- The drawing ends with the first free cell. -/
theorem generateFood_eq_none_iff
    (snake : List Point) (draws : List Draw) :
    generateFood snake draws = none ↔ ∀ draw ∈ draws, draw.val ∈ snake := by
  induction draws with
  | nil =>
      simp [generateFood]
  | cons draw draws ih =>
      rw [generateFood, List.forall_mem_cons, ← ih]
      split
      next htaken =>
        have hmem := (isSnakePosition_iff snake draw.val).mp htaken
        simp [hmem]
      next hfree =>
        have hmem := mt (isSnakePosition_iff snake draw.val).mpr hfree
        simp [hmem]

/-- A move onto the food draws for the grown snake. -/
theorem Sound.step_food
    {s : SnakeGame} (hs : s.Sound) (hplays : s.gameOver_ = false)
    (hruns : s.paused_ = false) (hfood : s.newHead = s.food_)
    (draws : List Draw) :
    s.step (.timer draws) = none ↔
      generateFood (s.newHead :: s.snake_) draws = none := by
  have hwall : ¬ hitsWall s.newHead = true := by
    rw [hitsWall_iff, not_not, hfood]
    exact hs.food_inside
  have hself : ¬ isSnakePosition s.snake_ s.newHead = true := by
    rw [isSnakePosition_iff, hfood]
    exact hs.food_free
  rw [SnakeGame.step, if_pos (by rw [hplays, hruns]; rfl),
    SnakeGame.gameLoop, if_neg (by rw [hplays]; exact Bool.false_ne_true)]
  dsimp only
  rw [if_neg hwall, if_neg hself, if_pos hfood, Option.map_eq_none_iff]

/-- The move onto a food returns as soon as the drawing comes to a free cell;
but when there have been 360 before, the snake fills the field, and the move
does not return whatever is drawn. -/
theorem last_food_hangs
    {draws : List Draw} {s₀ s : SnakeGame} {events : List SnakeEvent}
    (hcreate : create draws = some s₀)
    (hrun : run SnakeGame.step s₀ events = some s)
    (hplays : s.gameOver_ = false) (hruns : s.paused_ = false)
    (hfood : s.newHead = s.food_) :
    s.score_ ≤ 360 ∧
      (s.score_ < 360 →
        ∃ cell : Draw, ∀ draws, cell ∈ draws →
          s.step (.timer draws) ≠ none) ∧
      (s.score_ = 360 → ∀ draws, s.step (.timer draws) = none) := by
  have hs := run_sound hcreate hrun
  have hlength := hs.length
  have hinside : s.newHead.Inside := hfood ▸ hs.food_inside
  have hfree : s.newHead ∉ s.snake_ := hfood ▸ hs.food_free
  obtain ⟨-, hapart, hcells, -⟩ := hs.grown hplays hinside hfree
  have hfits := (length_le_field hapart hcells).1
  have hiff := exists_free_iff hapart hcells
  rw [List.length_cons] at hfits hiff
  refine ⟨by omega, ?_, ?_⟩
  · intro hless
    obtain ⟨p, hp, hpfree⟩ := hiff.mpr (by omega)
    refine ⟨⟨p, hp⟩, fun draws hmem hnone => ?_⟩
    rw [hs.step_food hplays hruns hfood, generateFood_eq_none_iff] at hnone
    exact hpfree (hnone _ hmem)
  · intro hlast draws
    rw [hs.step_food hplays hruns hfood, generateFood_eq_none_iff]
    intro draw _
    by_contra hdraw
    have hless := hiff.mp ⟨draw.val, draw.property, hdraw⟩
    omega

/-- Where a way around the whole field goes on: left in the first row, and down
and up through the columns below it. -/
def wayOn (p : Point) : Direction :=
  if p.y = 1 then
    if p.x = 1 then .DOWN else .LEFT
  else if p.x % 2 = 1 then
    if p.y = gameHeight_ - 2 then .RIGHT else .DOWN
  else
    if p.y = 2 ∧ p.x < gameWidth_ - 2 then .RIGHT else .UP

def keyOf : Direction → Char
  | .UP => 'w'
  | .DOWN => 's'
  | .LEFT => 'a'
  | .RIGHT => 'd'

/-- A draw of the cell, if it is one of the field. -/
def drawAt (p : Point) : List Draw :=
  if h : p.Inside then [⟨p, h⟩] else []

/-- The snake turns on its way, and the next food is always in front of it. -/
def feasts : Nat → Point → List SnakeEvent
  | 0, head => [.key (keyOf (wayOn head)) []]
  | n + 1, head =>
      let newHead := head.next (wayOn head)
      .key (keyOf (wayOn head)) [] ::
        .timer (drawAt (newHead.next (wayOn newHead))) :: feasts n newHead

/-- The snake leaves the row in which it starts, and then 360 feasts follow. -/
def wholeField : List SnakeEvent :=
  [.key 's' [], .timer [], .timer [], .timer []] ++ feasts 360 ⟨15, 10⟩

/-- A game that comes to the last food. -/
theorem last_food_hangs_reached :
    ∃ s₀ s, create (drawAt ⟨15, 11⟩) = some s₀ ∧
      run SnakeGame.step s₀ wholeField = some s ∧
      s.score_ = 360 ∧ ∀ draws, s.step (.timer draws) = none := by
  obtain ⟨s₀, hcreate, hs₀⟩ :=
    Option.bind_eq_some_iff.mp
      (show ((create (drawAt ⟨15, 11⟩)).bind fun s₀ =>
          (run SnakeGame.step s₀ wholeField).map fun s =>
            (s.score_, s.gameOver_, s.paused_,
              decide (s.newHead = s.food_))) =
          some (360, false, false, true)
        by decide +kernel)
  obtain ⟨s, hrun, hs⟩ := Option.map_eq_some_iff.mp hs₀
  simp only [Prod.mk.injEq, decide_eq_true_eq] at hs
  obtain ⟨hscore, hplays, hruns, hfood⟩ := hs
  exact ⟨s₀, s, hcreate, hrun, hscore,
    (last_food_hangs hcreate hrun hplays hruns hfood).2.2 hscore⟩

end SnakeGame

end Hohnor
