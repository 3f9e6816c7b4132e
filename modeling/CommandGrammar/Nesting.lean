/-! A chain of things entered one inside another, never empty, the innermost first. -/
namespace CommandGrammar

structure Nesting (α : Type) where
  innermost : α
  outer : List α

namespace Nesting
variable {α β : Type}

def single (a : α) : Nesting α := ⟨a, []⟩

def toList (nesting : Nesting α) : List α := nesting.innermost :: nesting.outer

def enter (nesting : Nesting α) (a : α) : Nesting α := ⟨a, nesting.toList⟩

def map (f : α → β) (nesting : Nesting α) : Nesting β := ⟨f nesting.innermost, nesting.outer.map f⟩

@[simp] theorem toList_single (a : α) : (single a).toList = [a] := rfl

@[simp] theorem toList_enter (nesting : Nesting α) (a : α) :
    (nesting.enter a).toList = a :: nesting.toList := rfl

@[simp] theorem toList_map (f : α → β) (nesting : Nesting α) :
    (nesting.map f).toList = nesting.toList.map f := rfl

@[simp] theorem map_enter (f : α → β) (nesting : Nesting α) (a : α) :
    (nesting.enter a).map f = (nesting.map f).enter (f a) := rfl

end Nesting
end CommandGrammar
