import VisibilityRules.Configuration
import VisibilityRules.Proofs.Run
import VisibilityRules.Proofs.Table
import VisibilityRules.Proofs.Text.Spelling

/-!
# Configurations from the environment

Four variables decide about a configuration. Each of them is read on its own, in any spelling of its
words, and a refusal names the variable and its text. The level of a configuration that is given
back is one of the log's, so the log can be set up with it.
-/

namespace VisibilityRules

/-- The variable and the text that a fault refuses, if it is a refusal. -/
def ConfigFault.refused? : ConfigFault → Option (String × String)
  | notBool name given => some (name, given)
  | notAmong name _ _ given => some (name, given)
  | notLevel name given => some (name, given)
  | unknownLevel _ => none

def ConfigFault.refusedName? (f : ConfigFault) : Option String := f.refused?.map Prod.fst

namespace Configuration

/-- The environment variables of the engine, in the order in which they are read. -/
def variableNames : List String :=
  ["CACHE_ENABLED", "CACHE_STRATEGY", "NESTED_RELATION", "LOG_LEVEL"].map (variableStem ++ ·)

/-- Whether two environments spell the variables of the engine differently at most. -/
def SameWords (env env' : Table String) : Prop :=
  ∀ name ∈ variableNames, Option.Rel Text.Respelled (Table.get? env name) (Table.get? env' name)

/-! ### Words -/

section Words

variable {s t : String} (h : Text.Respelled s t)

include h

theorem boolWord?_spelling : boolWord? t = boolWord? s := by
  rw [boolWord?, lowerOption, h.lowerWord_trim]
  rfl

theorem choiceWord?_spelling {α : Type} (word : α → String) (first second : α) :
    choiceWord? word first second t = choiceWord? word first second s := by
  rw [choiceWord?, lowerOption, h.lowerWord_trim]
  rfl

theorem levelWord?_spelling : levelWord? t = levelWord? s := by
  rw [levelWord?, upperOption, h.upperWord_trim]
  rfl

end Words

/-! ### One variable -/

section Variable

variable {α : Type} {env env' : Table String} {name : String} {default : α}
  {meaning? : String → Option α} {refusal : String → ConfigFault}

theorem ofVariable_eq_ok {a : α} (h : ofVariable env name default meaning? refusal = .ok a) :
    a = default ∨ ∃ raw, meaning? raw = some a := by
  unfold ofVariable at h
  split at h
  · exact .inl (Except.ok.inj h).symm
  · next raw _ =>
    split at h
    · next hmeaning =>
      cases h
      exact .inr ⟨raw, hmeaning⟩
    · cases h

variable (hrefusal : ∀ raw, (refusal raw).refused? = some (name, raw))

include hrefusal

theorem ofVariable_eq_error {f : ConfigFault}
    (h : ofVariable env name default meaning? refusal = .error f) :
    ∃ raw, Table.get? env name = some raw ∧ f.refused? = some (name, raw) := by
  unfold ofVariable at h
  split at h
  · cases h
  · next raw hget =>
    split at h
    · cases h
    · cases h
      exact ⟨raw, hget, hrefusal raw⟩

/-- Where a word means the same in all spellings, so does a variable. -/
theorem ofVariable_spelling (hmeaning : ∀ s t, Text.Respelled s t → meaning? t = meaning? s)
    (h : Option.Rel Text.Respelled (Table.get? env name) (Table.get? env' name)) :
    (ofVariable env' name default meaning? refusal).mapError ConfigFault.refusedName? =
      (ofVariable env name default meaning? refusal).mapError ConfigFault.refusedName? := by
  unfold ofVariable
  generalize Table.get? env name = given at h
  generalize Table.get? env' name = given' at h
  cases h with
  | none => rfl
  | @some s t hspelling =>
    have hvariable (raw : String) : (refusal raw).refusedName? = some name := by
      rw [ConfigFault.refusedName?, hrefusal]
      rfl
    dsimp only
    rw [hmeaning s t hspelling]
    cases meaning? s with
    | some a => rfl
    | none => rw [Except.mapError, Except.mapError, hvariable, hvariable]

end Variable

section Spelling

variable {env env' : Table String} {name : String}
  (h : Option.Rel Text.Respelled (Table.get? env name) (Table.get? env' name))

include h

private theorem boolVariable_spelling (default : Bool) :
    (boolVariable env' name default).mapError ConfigFault.refusedName? =
      (boolVariable env name default).mapError ConfigFault.refusedName? :=
  ofVariable_spelling (fun _ => rfl) (fun _ _ => boolWord?_spelling) h

private theorem choiceVariable_spelling {α : Type} (word : α → String) (first second : α) :
    (choiceVariable env' name word first second).mapError ConfigFault.refusedName? =
      (choiceVariable env name word first second).mapError ConfigFault.refusedName? :=
  ofVariable_spelling (fun _ => rfl) (fun _ _ h => choiceWord?_spelling h word first second) h

private theorem levelVariable_spelling (default : String) :
    (levelVariable env' name default).mapError ConfigFault.refusedName? =
      (levelVariable env name default).mapError ConfigFault.refusedName? :=
  ofVariable_spelling (fun _ => rfl) (fun _ _ => levelWord?_spelling) h

end Spelling

/-! ### Levels -/

theorem isSome_of_levelVariable {env : Table String} {name default level : String}
    (hdefault : (Table.get? levelNumbers default).isSome)
    (h : levelVariable env name default = .ok level) : (Table.get? levelNumbers level).isSome := by
  rcases ofVariable_eq_ok h with rfl | ⟨raw, hraw⟩
  · exact hdefault
  · obtain ⟨e, hfind, rfl⟩ := Option.map_eq_some_iff.mp hraw
    have hlisted : ∀ e ∈ levelNumbers, (Table.get? levelNumbers e.1).isSome := by decide +kernel
    exact hlisted e (List.mem_of_find?_eq_some hfind)

theorem levelNumber_of_get? {c : Configuration} {n : Nat}
    (h : Table.get? levelNumbers c.logLevel = some n) : c.levelNumber = .ok n := by
  have hconstants : ∀ e ∈ levelNumbers, Table.get? levelConstants e.1 = some e.2 := by
    decide +kernel
  rw [levelNumber, hconstants _ (Table.mem_of_get?_eq_some h)]

/-! ### All variables -/

private theorem ofEnvironment_eq (env : Table String) :
    ofEnvironment env =
      (boolVariable env (variableStem ++ "CACHE_ENABLED") true).bind fun cacheEnabled =>
        (choiceVariable env (variableStem ++ "CACHE_STRATEGY") CacheStrategy.word .snapshot
          .dependencies).bind fun cacheStrategy =>
          (choiceVariable env (variableStem ++ "NESTED_RELATION") Nesting.word .and .term).bind
            fun nesting =>
              (levelVariable env (variableStem ++ "LOG_LEVEL") "WARNING").bind fun logLevel =>
                .ok { cacheEnabled, cacheStrategy, nesting, logLevel } := rfl

theorem refused_of_ofEnvironment {env : Table String} {f : ConfigFault}
    (h : ofEnvironment env = .error f) :
    ∃ name ∈ variableNames, ∃ raw,
      Table.get? env name = some raw ∧ f.refused? = some (name, raw) := by
  simp only [ofEnvironment_eq, Outcome.bind_eq_error_iff] at h
  rcases h with h | ⟨_, _, h | ⟨_, _, h | ⟨_, _, h | ⟨_, _, h⟩⟩⟩⟩
  · exact ⟨_, by simp [variableNames], ofVariable_eq_error (fun _ => rfl) h⟩
  · exact ⟨_, by simp [variableNames], ofVariable_eq_error (fun _ => rfl) h⟩
  · exact ⟨_, by simp [variableNames], ofVariable_eq_error (fun _ => rfl) h⟩
  · exact ⟨_, by simp [variableNames], ofVariable_eq_error (fun _ => rfl) h⟩
  · cases h

theorem levelNumber_of_ofEnvironment {env : Table String} {c : Configuration}
    (h : ofEnvironment env = .ok c) :
    ∃ n, Table.get? levelNumbers c.logLevel = some n ∧ c.levelNumber = .ok n := by
  simp only [ofEnvironment_eq, Outcome.bind_eq_ok_iff] at h
  obtain ⟨_, _, _, _, _, _, level, hlevel, hc⟩ := h
  have hsome := isSome_of_levelVariable (by decide +kernel) hlevel
  obtain ⟨n, hn⟩ := Option.isSome_iff_exists.mp hsome
  cases hc
  exact ⟨n, hn, levelNumber_of_get? hn⟩

private theorem each_variable {p : String → Prop} (h : ∀ name ∈ variableNames, p name) :
    p (variableStem ++ "CACHE_ENABLED") ∧ p (variableStem ++ "CACHE_STRATEGY") ∧
      p (variableStem ++ "NESTED_RELATION") ∧ p (variableStem ++ "LOG_LEVEL") := by
  simpa [variableNames] using h

theorem ofEnvironment_congr {env env' : Table String}
    (h : ∀ name ∈ variableNames, Table.get? env' name = Table.get? env name) :
    ofEnvironment env' = ofEnvironment env := by
  obtain ⟨henabled, hstrategy, hnesting, hlevel⟩ := each_variable h
  simp only [ofEnvironment_eq, boolVariable, choiceVariable, levelVariable, ofVariable, henabled,
    hstrategy, hnesting, hlevel]

theorem ofEnvironment_spelling {env env' : Table String} (h : SameWords env env') :
    (ofEnvironment env').mapError ConfigFault.refusedName? =
      (ofEnvironment env).mapError ConfigFault.refusedName? := by
  obtain ⟨henabled, hstrategy, hnesting, hlevel⟩ := each_variable h
  simp only [ofEnvironment_eq, Outcome.mapError_bind, boolVariable_spelling henabled,
    choiceVariable_spelling hstrategy, choiceVariable_spelling hnesting,
    levelVariable_spelling hlevel]

/-- An environment either gives a configuration whose level has a number in the log, which the log
is then set up with, or one of the engine's variables is refused with its text. All other variables
are passed over. Blanks around the words and the case of their letters do not matter: in another
spelling they give the same configuration, or the same variable is refused. -/
theorem environment_usable_in_any_spelling (env : Table String) :
    ((∃ c n, ofEnvironment env = .ok c ∧ Table.get? levelNumbers c.logLevel = some n ∧
        c.levelNumber = .ok n) ∨
      ∃ f name raw, ofEnvironment env = .error f ∧ name ∈ variableNames ∧
        Table.get? env name = some raw ∧ f.refused? = some (name, raw)) ∧
    ∀ env' : Table String,
      ((∀ name ∈ variableNames, Table.get? env' name = Table.get? env name) →
        ofEnvironment env' = ofEnvironment env) ∧
      (SameWords env env' →
        (ofEnvironment env').mapError ConfigFault.refusedName? =
          (ofEnvironment env).mapError ConfigFault.refusedName?) := by
  refine ⟨?_, fun env' => ⟨ofEnvironment_congr, ofEnvironment_spelling⟩⟩
  cases h : ofEnvironment env with
  | ok c =>
    obtain ⟨n, hlevel, hnumber⟩ := levelNumber_of_ofEnvironment h
    exact .inl ⟨c, n, rfl, hlevel, hnumber⟩
  | error f =>
    obtain ⟨name, hname, raw, hraw, hrefused⟩ := refused_of_ofEnvironment h
    exact .inr ⟨f, name, raw, rfl, hname, hraw, hrefused⟩

theorem debug_in_two_spellings :
    let env : Table String := [("PATH", "/bin"), ("CONTROL_CONDITIONS_CACHE_ENABLED", "off"),
      ("CONTROL_CONDITIONS_LOG_LEVEL", "debug")]
    let env' : Table String := [("CONTROL_CONDITIONS_LOG_LEVEL", "\tDEBUG "),
      ("CONTROL_CONDITIONS_CACHE_ENABLED", "Off")]
    (∀ name ∈ variableNames, Table.get? (Table.remove env "PATH") name = Table.get? env name) ∧
      ofEnvironment (Table.remove env "PATH") = ofEnvironment env ∧
      SameWords env env' ∧
      (ofEnvironment env').mapError ConfigFault.refusedName? =
        .ok ⟨false, .snapshot, .and, "DEBUG"⟩ := by
  intro env env'
  have hremoved : ∀ name ∈ variableNames,
      Table.get? (Table.remove env "PATH") name = Table.get? env name := by
    decide +kernel
  have hsame : SameWords env env' := by
    have hoff : Text.Respelled "off" "Off" :=
      ⟨[], "Off".toList, [], by decide +kernel, nofun, nofun, by decide +kernel⟩
    have hdebug : Text.Respelled "debug" "\tDEBUG " :=
      ⟨['\t'], "DEBUG".toList, [' '], by decide +kernel, List.forall_mem_singleton.mpr (by decide),
        List.forall_mem_singleton.mpr (by decide), by decide +kernel⟩
    have hlookups : ∀ name ∈ variableNames,
        (Table.get? env name = none ∧ Table.get? env' name = none) ∨
        (Table.get? env name = some "off" ∧ Table.get? env' name = some "Off") ∨
        (Table.get? env name = some "debug" ∧ Table.get? env' name = some "\tDEBUG ") := by
      decide +kernel
    intro name hname
    rcases hlookups name hname with ⟨h, h'⟩ | ⟨h, h'⟩ | ⟨h, h'⟩
    · rw [h, h']
      exact .none
    · rw [h, h']
      exact .some hoff
    · rw [h, h']
      exact .some hdebug
  have hread : ofEnvironment env = .ok ⟨false, .snapshot, .and, "DEBUG"⟩ := rfl
  have h := (environment_usable_in_any_spelling env).2
  refine ⟨hremoved, (h _).1 hremoved, hsame, ?_⟩
  rw [(h env').2 hsame, hread]
  rfl

end Configuration

end VisibilityRules
