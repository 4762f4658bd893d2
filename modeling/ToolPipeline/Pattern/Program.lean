import ToolPipeline.Pattern.Expr

/-! Reading texts by expressions. An expression becomes a program whose instructions are numbered,
and a text is read with a list of the places in the program that are open, the preferred ones
first. As soon as a way of reading is complete, those behind it are given up. -/

namespace ToolPipeline.Pattern

inductive Instruction where
  | one (chars : CharClass) (next : Nat)
  | check (l : Look) (next : Nat)
  | fork (first second : Nat)
  | done
  deriving DecidableEq, Repr

abbrev Program := Array Instruction

namespace Program

def fork (greedy : Bool) (go stop : Nat) : Instruction :=
  if greedy then .fork go stop else .fork stop go

/-- Adds the instructions of an expression that is followed by `next`: the program with them, and
where they begin. -/
def add (p : Program) (next : Nat) : Expr → Program × Nat
  | .empty => (p, next)
  | .one chars => (p.push (.one chars next), p.size)
  | .look l => (p.push (.check l next), p.size)
  | .seq a b =>
    let (p, second) := add p next b
    add p second a
  | .choice a b =>
    let (p, first) := add p next a
    let (p, second) := add p next b
    (p.push (.fork first second), p.size)
  | .repeated a .atMostOnce greedy =>
    let (p, start) := add p next a
    (p.push (fork greedy start next), p.size)
  | .repeated a .atLeastOnce greedy =>
    let again := p.size
    let (p, start) := add (p.push .done) again a
    (p.setIfInBounds again (fork greedy start next), start)
  | .repeated a .anyNumber greedy =>
    let again := p.size
    let (p, start) := add (p.push .done) again a
    let p := p.setIfInBounds again (fork greedy start next)
    -- A round that reads nothing must not be mistaken for the decision before all rounds.
    if a.mayBeEmpty then (p.push (fork greedy start next), p.size) else (p, again)

def ofExpr (e : Expr) : Program × Nat := add #[.done] 0 e

/-- Opens places one after the other, and with each of them those to which it leads without a
character being read. `opened` holds what is open already, the last one first. Every place leads to
two others at most, so `steps` bounds nothing when it is three times the size of the program. -/
def openFrom (p : Program) (before after : Option Char) :
    (steps : Nat) → (opened : List Nat) → (toOpen : List Nat) → List Nat
  | 0, opened, _ => opened.reverse
  | _, opened, [] => opened.reverse
  | steps + 1, opened, i :: rest =>
    if opened.contains i then openFrom p before after steps opened rest
    else
      let next := match p[i]? with
        | some (.fork first second) => [first, second]
        | some (.check l next) => if l.holds before after then [next] else []
        | _ => []
      openFrom p before after steps (i :: opened) (next ++ rest)

def isDone (p : Program) (i : Nat) : Bool := p[i]? = some .done

def after? (p : Program) (c : Char) (i : Nat) : Option Nat :=
  match p[i]? with
  | some (.one chars next) => if chars.contains c.toNat then some next else none
  | _ => none

def advance (p : Program) (c : Char) (places : List Nat) : List Nat :=
  (places.takeWhile fun i => !p.isDone i).filterMap (p.after? c)

/-- Whether the preferred way of reading a text from one of the places reads all of it. -/
def readsFrom (p : Program) (before : Option Char) (places : List Nat) : List Char → Bool
  | [] => (p.openFrom before none (3 * p.size + places.length) [] places).any p.isDone
  | c :: rest =>
    let opened := p.openFrom before (some c) (3 * p.size + places.length) [] places
    p.readsFrom (some c) (p.advance c opened) rest

end Program

end ToolPipeline.Pattern
