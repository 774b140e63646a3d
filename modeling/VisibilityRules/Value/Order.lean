import VisibilityRules.Value.Equality

/-!
# Order of values

Numbers are ordered by place, texts by code points, and lists among lists and tuples among tuples by
the first pair of items that are not equal. All other pairs of values have no order of their own.
-/

namespace VisibilityRules.Value

mutual
/-- Whether two values stand in an order relation, where they have an order at all. -/
def ordered? (relation : Inequality) : Value → Value → Option Bool
  | .text s, .text t => some (relation.holds (s < t) (t < s))
  | .list xs, .list ys => orderedItems? relation xs ys
  | .tuple xs, .tuple ys => orderedItems? relation xs ys
  | v, w =>
    match v.count?, w.count? with
    | some a, some b => some (Number.related relation a b)
    | _, _ => none
/-- The order of two sequences: that of the first unequal items, or that of the lengths. -/
def orderedItems? (relation : Inequality) : List Value → List Value → Option Bool
  | [], [] => some (relation.holds false false)
  | [], _ :: _ => some (relation.holds true false)
  | _ :: _, [] => some (relation.holds false true)
  | x :: xs, y :: ys =>
    if equal x y then orderedItems? relation xs ys else ordered? relation x y
end

end VisibilityRules.Value
