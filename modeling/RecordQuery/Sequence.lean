import RecordQuery.SortOrder

/-!
# Sequences of records

A query does not touch records itself. It hands its steps to a sequence, which has the records and
decides how to carry a step out. A list of records is the sequence in memory.
-/

namespace RecordQuery

/-- A type whose values can be read as records. -/
class HasFields (ρ : Type) where
  record : ρ → Record

/-- Records in an order, to which the steps of a query can be applied. Counting gives the sequence
back, so that it may take note of being counted. -/
class Sequence (σ : Type) (ρ : outParam Type) where
  /-- Keeps the records that pass a plan. -/
  filter : Plan → σ → σ
  /-- Keeps the records that pass a test. -/
  search : (ρ → Bool) → σ → σ
  /-- The number of records. -/
  count : σ → Nat × σ
  /-- Sorts the records and keeps the order of those that are not told apart. -/
  sort : SortOrder → σ → σ
  /-- Drops so many records from the front. -/
  skip : Nat → σ → σ
  /-- Keeps so many records from the front. -/
  take : Nat → σ → σ

instance {ρ : Type} [HasFields ρ] : Sequence (List ρ) ρ where
  filter plan l := l.filter fun r => plan.passes (HasFields.record r)
  search test l := l.filter test
  count l := (l.length, l)
  sort order l :=
    if order.isEmpty then l
    else Sorting.sort
      (fun r s => order.compare (HasFields.record r) (HasFields.record s)) l
  skip n l := l.drop n
  take n l := l.take n

end RecordQuery
