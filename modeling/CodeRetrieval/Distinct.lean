set_option autoImplicit false

namespace CodeRetrieval

variable {α β : Type} [BEq β]

/-- Elements whose key is neither in `seen` nor the key of an earlier element. -/
def distinctFrom (key : α → β) (seen : List β) : List α → List α
  | [] => []
  | x :: rest =>
    if seen.contains (key x) then distinctFrom key seen rest
    else x :: distinctFrom key (key x :: seen) rest

def distinctOn (key : α → β) (xs : List α) : List α := distinctFrom key [] xs

def distinct [BEq α] (xs : List α) : List α := distinctOn id xs

/-- Insertion into a strictly increasing list; an element that is there already stays alone. -/
def insertSorted [LT α] [DecidableLT α] (x : α) : List α → List α
  | [] => [x]
  | y :: ys =>
    if x < y then x :: y :: ys
    else if y < x then y :: insertSorted x ys
    else y :: ys

def sortedSet [LT α] [DecidableLT α] (xs : List α) : List α := xs.foldr insertSorted []

end CodeRetrieval
