import Exemplar.Proofs.Decimal.Idempotence
import Exemplar.Proofs.Generation.Points

/-!
# Generated numbers are fixed points of rounding

A generated number is rounded to a number of places last of all, so that rounding it again
leaves it alone. And two numbers that rounding leaves alone are bounds that it keeps.
-/

namespace Exemplar

open Run

/-- A finite number that a run makes of a number shape is left alone by rounding. -/
theorem round_of_expand_number {config : Config} {child : Json → Run Json} {minimum maximum : Json}
    {draws : Draws} {position final : Nat} {value : Json} {places : Int}
    (hplaces : places.natAbs ≤ 100000) (hprecision : config.numberPrecision.asInt = .ok places)
    (hrun : expand config child (.number minimum maximum) draws position = .value value final) :
    ∃ result, value = .float result ∧ ∀ negative rank, result = .finite negative rank →
      result.round places = .ok result := by
  obtain ⟨result, hpoint, rfl⟩ := map_eq_value.mp hrun
  refine ⟨result, rfl, ?_⟩
  rintro negative rank rfl
  obtain ⟨_, _, _, _, _, count, -, -, -, -, -, hcount, hround⟩ := point_eq_value hpoint
  obtain rfl := Except.ok.inj (hprecision.symm.trans hcount)
  exact Double.round_idempotent hplaces hround

/-- What rounding to a number of places does to the order, the signs and the results of rounding
itself. -/
structure RoundingLaws (places : Int) : Prop where
  monotone : ∀ number number' result result' : Double, number.NotAbove number' →
    number.round places = .ok result → number'.round places = .ok result' →
      result.NotAbove result'
  odd : ∀ number : Double, (-number).round places = (number.round places).map (-·)
  idempotent : ∀ (number : Double) (negative : Bool) (rank : Fin rankBound),
    number.round places = .ok (.finite negative rank) →
      Double.round (.finite negative rank) places = .ok (.finite negative rank)
  generated : ∀ (config : Config) (child : Json → Run Json) (minimum maximum : Json)
    (draws : Draws) (position final : Nat) (value : Json),
      config.numberPrecision.asInt = .ok places →
      expand config child (.number minimum maximum) draws position = .value value final →
        ∃ result, value = .float result ∧ ∀ negative rank, result = .finite negative rank →
          result.round places = .ok result
  between : ∀ low number high : Double, low.round places = .ok low → high.round places = .ok high →
    low.NotAbove number → number.NotAbove high →
      ∃ result, number.round places = .ok result ∧ low.NotAbove result ∧ result.NotAbove high

/-- Rounding to up to a hundred thousand places, before or after the point, is monotone, odd and
idempotent, and generated numbers are its fixed points. -/
theorem rounding_laws {places : Int} (hplaces : places.natAbs ≤ 100000) : RoundingLaws places where
  monotone _ _ _ _ := Double.round_mono
  odd number := Double.round_neg number places
  idempotent _ _ _ := Double.round_idempotent hplaces
  generated _ _ _ _ _ _ _ _ hprecision hrun := round_of_expand_number hplaces hprecision hrun
  between _ _ _ hlow hhigh hle hle' := by
    obtain ⟨result, hround⟩ := Double.exists_round_of_between hplaces hle hle' hlow hhigh
    exact ⟨result, hround, Double.round_mono hle hlow hround, Double.round_mono hle' hround hhigh⟩

/-- The number written as `1.005` is rounded to `1.01`, and that to itself. -/
theorem rounding_laws_sample : ∃ negative rank,
    Double.round (.ofDecimal false 1005 (-3)) 2 = .ok (.finite negative rank) ∧
      Double.round (.finite negative rank) 2 = .ok (.finite negative rank) := by
  obtain ⟨negative, rank, hround⟩ : ∃ negative rank,
      Double.round (.ofDecimal false 1005 (-3)) 2 = .ok (.finite negative rank) :=
    ⟨false, ⟨4607227454796291113, by decide⟩, by decide +kernel⟩
  exact ⟨negative, rank, hround, (rounding_laws (by decide)).idempotent _ negative rank hround⟩

end Exemplar
