import CommunitySearch.Db.RankingConfig
import Mathlib.Algebra.Group.Nat.Defs

/-!
# Ranking

The final score of a local result: its relevance, times a weight for its source, a boost for its
domain, and a factor that halves with the age of the document.
-/

namespace CommunitySearch

/-- The `f64` a stored number is. Its denominator is a power of two, so it is read exactly from the
decimal it equals. -/
def Rat.toF64 (q : Rat) : Float :=
  let k := q.den.log2
  let m := Float.ofScientific (q.num.natAbs * 5 ^ k) true k
  if q.num < 0 then -m else m

/-- What a score is computed from. -/
structure ScoreInputs where
  baseRelevance : Float32
  source : String
  domain : String
  docTimestampSecs : Int
  nowSecs : Int

/-- `freshness_factor`: the factor halves every half-life; future timestamps and a half-life of
zero or less count as fresh. -/
def freshnessFactor (docTs now : Int) (halfLifeDays : Rat) : Float32 :=
  if halfLifeDays ≤ 0 then 1.0
  else
    let ageSecs := Float.ofInt (max (Int64.ofInt now - Int64.ofInt docTs).toInt 0)
    let ageDays := ageSecs / 86400.0
    (Float.pow 0.5 (ageDays / Rat.toF64 halfLifeDays)).toFloat32

/-- The weight of a key; one when it has none. -/
def weightOf (weights : List (String × Rat)) (key : String) : Float32 :=
  (Rat.toF64 (((weights.find? fun w ↦ w.1 = key).map Prod.snd).getD 1)).toFloat32

/-- `score`. -/
def score (inputs : ScoreInputs) (cfg : RankingConfig) : Float32 :=
  inputs.baseRelevance * weightOf cfg.sourceWeights inputs.source *
    freshnessFactor inputs.docTimestampSecs inputs.nowSecs cfg.freshnessHalfLifeDays *
    weightOf cfg.domainBoosts inputs.domain

end CommunitySearch
