/-! Cutting a sequence at its terminators, as a file is cut into lines. -/

namespace MethodSurvey.Text

variable {α : Type} [BEq α]

/-- The pieces that end at a terminator, without it, and last of all the piece
after the last terminator, which may be empty. -/
def pieces (terminator : α) (s : List α) : List (List α) :=
  s.foldr
    (fun c rest =>
      if c == terminator then [] :: rest
      else match rest with
        | piece :: others => (c :: piece) :: others
        | [] => [[c]])
    [[]]

/-- The pieces that a terminator ends. -/
def completePieces (terminator : α) (s : List α) : List (List α) :=
  (pieces terminator s).dropLast

/-- What follows the last terminator. -/
def lastPiece (terminator : α) (s : List α) : List α :=
  (pieces terminator s).getLast?.getD []

/-- All pieces, the last one only if it is not empty. -/
def allPieces (terminator : α) (s : List α) : List (List α) :=
  completePieces terminator s ++
    if (lastPiece terminator s).isEmpty then [] else [lastPiece terminator s]

end MethodSurvey.Text
