import RecordMapping.Proofs.Number.Integers
import RecordMapping.Proofs.Repository.Writing

/-!
# Counting attempts

The attempts to run a statement are counted in words of 32 bits, up to a bound that is one more than
the cap on retries. `Pool.counted` is the run as it is counted: it stops the program where a number
goes beyond its word. Up to the bound no number does, so that only the bound itself is in question.

* `Config.exists_ofSettings`: settings describe a configuration with any cap;
* `Pool.run_countUpTo_eq`: counting up to a bound is sending again as often as is left up to it;
* `Pool.execute_eq_counted`: running a statement is the counted run;
* `Pool.counted_iff`: which caps can be counted.
-/

namespace RecordMapping

open Number Sql Text

/-! ## Caps that are accepted -/

namespace Config

/-- The digits of a word are read as the word. -/
theorem readUInt32?_toString (n : UInt32) : readUInt32? (toString n.toNat) = some n := by
  have hdigits : (Nat.toDigits 10 n.toNat).all isDigit = true :=
    List.all_eq_true.mpr fun c hc => isDigit_of_mem hc
  have hvalue : ofDigits (Nat.toDigits 10 n.toNat) = n.toNat := Nat.ofDigitChars_ten_toDigits
  have hsize : n.toNat < UInt32.size := n.toNat_lt
  unfold readUInt32?
  rw [toList_toString]
  -- there is no plus in front of digits
  split
  · rename_i rest hplus
    have hdigit : isDigit '+' = true := isDigit_of_mem (by rw [hplus]; exact List.mem_cons_self)
    exact absurd hdigit (by decide)
  · dsimp only
    rw [hdigits, hvalue, List.isEmpty_eq_false_iff.mpr Nat.toDigits_ne_nil, if_pos hsize,
      UInt32.ofNat_toNat]
    rfl

/-- There are no blanks around digits. -/
theorem trim_toString (n : Nat) : trim (toString n) = toString n := by
  obtain ⟨first, hfirst⟩ :=
    Option.isSome_iff_exists.mp (List.isSome_head?.mpr (@Nat.toDigits_ne_nil n 10))
  obtain ⟨last, hlast⟩ :=
    Option.isSome_iff_exists.mp (List.getLast?_isSome.mpr (@Nat.toDigits_ne_nil n 10))
  have hblank {c : Char} (hc : c ∈ Nat.toDigits 10 n) : isBlank c = false :=
    Calendar.not_isBlank_of_isDigit (isDigit_of_mem hc)
  have htrim := Calendar.Instant.trimChars_eq_self hfirst hlast (hblank (List.mem_of_head? hfirst))
    (hblank (List.mem_of_getLast? hlast))
  rw [trim, toList_toString, htrim, ← toList_toString, String.ofList_toList]

/-- Settings may ask for any cap, and the configuration that they describe passes its check. -/
theorem exists_ofSettings (retries : UInt32) : ∃ settings config,
    ofSettings settings = .ok config ∧ config.validate = .ok () ∧ config.retries = retries := by
  refine ⟨[("MAPPER_CONFLICT_RETRIES", toString retries.toNat)], { default with retries }, ?_, rfl,
    rfl⟩
  have hread : setting [("MAPPER_CONFLICT_RETRIES", toString retries.toNat)]
      "MAPPER_CONFLICT_RETRIES" readUInt32? default.retries = .ok retries := by
    have hget : Fields.get? [("MAPPER_CONFLICT_RETRIES", toString retries.toNat)]
        "MAPPER_CONFLICT_RETRIES" = some (toString retries.toNat) := rfl
    rw [setting, hget]
    dsimp only
    rw [trim_toString, readUInt32?_toString]
  refine bind_eq_ok.mpr ⟨default.defaultLimit, rfl, bind_eq_ok.mpr ⟨default.maxLimit, rfl,
    bind_eq_ok.mpr ⟨retries, hread, bind_eq_ok.mpr ⟨default.dateStorage, rfl, rfl⟩⟩⟩⟩

end Config

/-! ## Counting in words -/

namespace Pool

theorem toNat_add_one {n : UInt32} (h : n.toNat + 1 < UInt32.size) :
    (n + 1).toNat = n.toNat + 1 := by
  rw [UInt32.toNat_add]
  exact Nat.mod_eq_of_lt h

/-- The attempts to run a statement, after so many of them were counted: each one counts, and up to
the bound a conflict is followed by another one. The program stops at an attempt that cannot be
counted. -/
def countUpTo (bound : UInt32) (st : Statement) (attempts : UInt32) : Run Outcome :=
  if attempts.toNat + 1 < UInt32.size then do
    match ← send st with
    | .ok outcome => return outcome
    | .error e =>
      if attempts + 1 < bound && e.isTransient then countUpTo bound st (attempts + 1)
      else throw (.failed e)
  else throw .overflow
termination_by UInt32.size - attempts.toNat
decreasing_by
  have hcount : attempts.toNat + 1 < UInt32.size := by assumption
  rw [toNat_add_one hcount]
  omega

/-- The attempts to run a statement with a cap on retries. The bound on them counts the first
attempt, too, and the program stops if it cannot. -/
def counted (retries : UInt32) (st : Statement) : Run Outcome :=
  if retries.toNat + 1 < UInt32.size then countUpTo (retries + 1) st 0 else throw .overflow

variable {retries bound attempts : UInt32} {st : Statement}

/-- An attempt that can be counted is made, and its answer tells whether another one follows. -/
theorem run_countUpTo (hcount : attempts.toNat + 1 < UInt32.size) (pool : Pool) :
    (countUpTo bound st attempts).run.run pool
      = if attempts + 1 < bound && isConflict (pool.answer 0) then
          (countUpTo bound st (attempts + 1)).run.run (pool.afterSend st)
        else (Run.returned (pool.answer 0), pool.afterSend st) := by
  conv_lhs => unfold countUpTo
  rw [if_pos hcount, run_bind_ok (run_liftM (send st) pool), run_send]
  cases pool.answer 0 with
  | ok outcome =>
    show _ = if (_ && false) = true then _ else _
    rw [Bool.and_false]
    rfl
  | error e =>
    show StateT.run (ExceptT.run (if (_ && e.isTransient) = true then _ else _)) _
      = if (_ && e.isTransient) = true then _ else _
    split <;> rfl

/-- A single attempt is counted if the bound or its answer says that it is the last one. -/
theorem run_countUpTo_last {left : Nat} (hcount : attempts.toNat + 1 < UInt32.size) {pool : Pool}
    (hlast : (decide (attempts + 1 < bound) && isConflict (pool.answer 0)) = false)
    (hattempts : pool.attempts left = 1) : (countUpTo bound st attempts).run.run pool
      = (Run.returned (pool.lastAnswer left), pool.afterAttempts left st) := by
  have hsend := @run_send_of_attempts _ _ st hattempts
  rw [run_send] at hsend
  obtain ⟨hanswer, hafter⟩ := Prod.mk.inj hsend
  rw [run_countUpTo hcount, hlast, ← hanswer, ← hafter]
  rfl

/-- What is left up to the bound are the retries: no attempt lies beyond it, so all of them are
counted. -/
theorem run_countUpTo_eq {left : Nat} (hleft : attempts.toNat + left + 1 = bound.toNat)
    (pool : Pool) : (countUpTo bound st attempts).run.run pool
      = (Run.returned (pool.lastAnswer left), pool.afterAttempts left st) := by
  have hbound : bound.toNat < UInt32.size := bound.toNat_lt
  have hcount : attempts.toNat + 1 < UInt32.size := by omega
  have hnext := toNat_add_one hcount
  induction left generalizing attempts pool with
  | zero =>
    have hlast : ¬ attempts + 1 < bound := by
      rw [UInt32.lt_iff_toNat_lt, hnext]
      omega
    apply run_countUpTo_last hcount
    · rw [decide_eq_false hlast, Bool.false_and]
    · unfold Pool.attempts
      omega
  | succ left ih =>
    have hmore : attempts + 1 < bound := by
      rw [UInt32.lt_iff_toNat_lt, hnext]
      omega
    cases hconflict : isConflict (pool.answer 0) with
    | false =>
      apply run_countUpTo_last hcount
      · rw [hconflict, Bool.and_false]
      · unfold Pool.attempts
        rw [conflicts_of_not_isConflict hconflict]
        omega
    | true =>
      rw [run_countUpTo hcount, decide_eq_true hmore, hconflict, lastAnswer_succ st hconflict,
        afterAttempts_succ st hconflict]
      have hroom : (attempts + 1).toNat + 1 < UInt32.size := by omega
      exact ih (by omega) (pool.afterSend st) hroom (toNat_add_one hroom)

/-- If the cap leaves room for the first attempt, the attempts are counted to the last one. -/
theorem run_counted (hroom : retries.toNat + 1 < UInt32.size) (pool : Pool) :
    (counted retries st).run.run pool
      = (Run.returned (pool.lastAnswer retries.toNat), pool.afterAttempts retries.toNat st) := by
  have hleft : (0 : UInt32).toNat + retries.toNat + 1 = (retries + 1).toNat := by
    rw [toNat_add_one hroom, UInt32.toNat_zero]
    omega
  unfold counted
  rw [if_pos hroom]
  exact run_countUpTo_eq hleft pool

/-- Running a statement is counting its attempts. -/
theorem execute_eq_counted (retries : UInt32) (st : Statement) :
    execute retries st = counted retries st := by
  by_cases hroom : retries.toNat + 1 < UInt32.size
  · exact funext fun pool => (run_execute hroom st pool).trans (run_counted hroom pool).symm
  · unfold execute counted
    rw [if_neg hroom, if_neg hroom]

/-- What a cap leads to that leaves no room for the first attempt: the bound cannot be counted, so
the program stops before anything is sent. If the bound were zero, as it is when words wrap around,
then the first answer would be final, be it a conflict or not. -/
theorem run_counted_of_full (hfull : ¬ retries.toNat + 1 < UInt32.size) (st : Statement)
    (pool : Pool) : (counted retries st).run.run pool = (.error .overflow, pool)
      ∧ (countUpTo (retries + 1) st 0).run.run pool
        = (Run.returned (pool.answer 0), pool.afterSend st) := by
  refine ⟨?_, ?_⟩
  · unfold counted
    rw [if_neg hfull]
    rfl
  · have hwrapped : retries + 1 = 0 := by
      apply UInt32.toNat_inj.mp
      have hlt : retries.toNat < UInt32.size := retries.toNat_lt
      have hlast : retries.toNat + 1 = UInt32.size := by omega
      rw [UInt32.toNat_add, UInt32.toNat_one, hlast]
      rfl
    rw [hwrapped, run_countUpTo (by decide) pool]
    exact if_neg Bool.false_ne_true

/-- **The greatest word is the only cap that cannot be counted, and no check refuses it.** Settings
may ask for any cap, and a mapping with it passes its check. Running a statement is the counted run.
If the cap is not the greatest word, neither the bound nor any attempt goes beyond the words,
whatever the database answers: a result or an error is returned, and a conflict is followed by
another attempt as long as the cap allows. If it is the greatest word, the program stops before the
statement is sent, whatever the statement and the answers are; with a bound that wraps around the
statement would be sent, but not again after a conflict. -/
theorem counted_iff (retries : UInt32) :
    (∀ schema, ∃ settings mapping, Config.ofSettings settings = .ok mapping.config
      ∧ Mapping.of schema mapping.config = .ok mapping ∧ mapping.config.retries = retries)
    ∧ (∀ st, execute retries st = counted retries st)
    ∧ ((∀ st pool, ((counted retries st).run.run pool).1 ≠ .error .overflow)
      ↔ retries.toNat ≠ UInt32.size - 1)
    ∧ (retries.toNat ≠ UInt32.size - 1 → ∀ st pool, (counted retries st).run.run pool
      = (Run.returned (pool.lastAnswer retries.toNat), pool.afterAttempts retries.toNat st))
    ∧ (retries.toNat = UInt32.size - 1 → ∀ st pool,
      (counted retries st).run.run pool = (.error .overflow, pool)
      ∧ (countUpTo (retries + 1) st 0).run.run pool
        = (Run.returned (pool.answer 0), pool.afterSend st)) := by
  have hlt : retries.toNat < UInt32.size := retries.toNat_lt
  refine ⟨fun schema => ?_, execute_eq_counted retries, ⟨fun h hfull => ?_, fun h st pool => ?_⟩,
    fun h st pool => ?_, fun h st pool => ?_⟩
  · obtain ⟨settings, config, hsettings, hvalid, hretries⟩ := Config.exists_ofSettings retries
    refine ⟨settings, ⟨schema, config, hvalid⟩, hsettings, ?_, hretries⟩
    unfold Mapping.of
    split
    · rfl
    · rename_i e he
      exact absurd (hvalid.symm.trans he) nofun
  · have hstops := (run_counted_of_full (show ¬ retries.toNat + 1 < UInt32.size by omega)
      ⟨"", []⟩ (.ofAnswers [])).1
    exact h ⟨"", []⟩ (.ofAnswers []) (congrArg (·.1) hstops)
  · rw [run_counted (by omega) pool]
    exact returned_ne_overflow _
  · exact run_counted (by omega) pool
  · exact run_counted_of_full (by omega) st pool

/-- The configuration with the greatest cap passes its check, and no statement is sent under it, be
it the first one and its answer a deadlock. -/
theorem counted_iff_greatest : ∃ config : Config,
    config.validate = .ok () ∧ config.retries.toNat = UInt32.size - 1
      ∧ ∀ st, (counted config.retries st).run.run
        (.ofAnswers [.error (.transientConflict "Deadlock found"), .ok .empty])
          = (.error .overflow,
            .ofAnswers [.error (.transientConflict "Deadlock found"), .ok .empty]) := by
  refine ⟨{ Config.default with retries := 4294967295 }, rfl, rfl, fun st => ?_⟩
  exact ((counted_iff 4294967295).2.2.2.2 rfl st _).1

end Pool

end RecordMapping
