import VisibilityRules.TermName

/-!
# Names as matches of a pattern

Term names have a pattern: a run of name characters, and possibly a second run in square brackets
right behind it. A search that tries all ways to match the pattern, one after another and at one
place after another, finds the name that is read off a text in one pass.
-/

namespace VisibilityRules

inductive Pattern where
  /-- the given character -/
  | char (c : Char)
  /-- one or more characters of a class, rather more than fewer -/
  | run (p : Char → Bool)
  /-- a pattern whose text is kept -/
  | kept (inner : Pattern)
  | seq (first second : Pattern)
  /-- a pattern or nothing, rather the pattern -/
  | option (inner : Pattern)

namespace Pattern

/-- A way in which a pattern matches the front of a text. -/
structure Match where
  text : List Char
  kept : List (List Char)
  rest : List Char

def Match.cons (c : Char) (m : Match) : Match := { m with text := c :: m.text }

def Match.keep (m : Match) : Match := { m with kept := m.text :: m.kept }

def Match.andThen (m next : Match) : Match :=
  ⟨m.text ++ next.text, m.kept ++ next.kept, next.rest⟩

/-- The ways to match one or more characters of a class, the longest first. -/
def runs (p : Char → Bool) : List Char → List Match
  | [] => []
  | c :: cs => if p c then (runs p cs).map (.cons c) ++ [⟨[c], [], cs⟩] else []

/-- The ways in which a pattern matches the front of a text, in the order in which they are
tried. -/
def ways : Pattern → List Char → List Match
  | char c, cs => if cs.head? = some c then [⟨[c], [], cs.tail⟩] else []
  | run p, cs => runs p cs
  | kept inner, cs => (ways inner cs).map .keep
  | seq first second, cs => (ways first cs).flatMap fun m => (ways second m.rest).map m.andThen
  | option inner, cs => ways inner cs ++ [⟨[], [], cs⟩]

theorem ways_kept_run (p : Char → Bool) (cs : List Char) :
    (kept (run p)).ways cs = (runs p cs).map .keep := rfl

theorem ways_seq (first second : Pattern) (cs : List Char) :
    (seq first second).ways cs =
      (first.ways cs).flatMap fun m => (second.ways m.rest).map m.andThen := rfl

/-- The first way to match at the first place where there is one. -/
def search (pattern : Pattern) : List Char → Option Match
  | [] => (pattern.ways []).head?
  | c :: cs => (pattern.ways (c :: cs)).head?.or (search pattern cs)

/-! ### Greedy runs -/

/-- The longest way to match one or more characters of a class. -/
def longest? (p : Char → Bool) (cs : List Char) : Option Match :=
  match cs.takeWhile p with
  | [] => none
  | c :: taken => some ⟨c :: taken, [], cs.dropWhile p⟩

theorem longest?_cons {p : Char → Bool} {c : Char} (h : p c) (cs : List Char) :
    longest? p (c :: cs) = some ⟨c :: cs.takeWhile p, [], cs.dropWhile p⟩ := by
  simp [longest?, h]

/-- The longest run comes first; all shorter ones end in front of a character of the class. -/
theorem runs_eq (p : Char → Bool) (cs : List Char) :
    ∃ shorter, runs p cs = (longest? p cs).toList ++ shorter ∧
      ∀ m ∈ shorter, ∃ c ∈ m.rest.head?, p c := by
  induction cs with
  | nil => exact ⟨[], rfl, nofun⟩
  | cons c cs ih =>
    by_cases hc : p c
    · obtain ⟨shorter, hruns, hshorter⟩ := ih
      cases cs with
      | nil => exact ⟨[], by simp [runs, longest?, hc], nofun⟩
      | cons d rest =>
        by_cases hd : p d
        · refine ⟨shorter.map (.cons c) ++ [⟨[c], [], d :: rest⟩], ?_, ?_⟩
          · rw [runs, if_pos hc, hruns, longest?_cons hd, longest?_cons hc]
            simp [Match.cons, hd]
          · intro m hm
            rcases List.mem_append.mp hm with hold | hnew
            · obtain ⟨m', hm', rfl⟩ := List.mem_map.mp hold
              exact hshorter m' hm'
            · rw [List.mem_singleton.mp hnew]
              exact ⟨d, rfl, hd⟩
        · refine ⟨[], ?_, nofun⟩
          simp [runs, longest?, hc, hd]
    · exact ⟨[], by simp [runs, longest?, hc], nofun⟩

theorem head?_runs (p : Char → Bool) (cs : List Char) : (runs p cs).head? = longest? p cs := by
  obtain ⟨shorter, hruns, hshorter⟩ := runs_eq p cs
  cases h : longest? p cs with
  | some m => simp [hruns, h]
  | none =>
    cases cs with
    | nil => rfl
    | cons c cs =>
      have hc : ¬p c := fun hc => by simp [longest?_cons hc] at h
      simp [runs, hc]

end Pattern

namespace TermName

open Pattern

/-- A run of name characters in front of a closing bracket, behind an opening one. -/
def partPattern : Pattern :=
  .seq (.char '[') (.seq (.kept (.run isNameChar)) (.char ']'))

/-- A run of name characters and, if there is one, the part behind it. -/
def pattern : Pattern := .seq (.kept (.run isNameChar)) (.option partPattern)

def ofMatch (m : Match) : TermName :=
  ⟨String.ofList (m.kept.headD []), m.kept[1]?.map String.ofList⟩

private def closeBracket (m : Match) : List Match :=
  if m.rest.head? = some ']' then [⟨m.text ++ [']'], m.text :: m.kept, m.rest.tail⟩] else []

private theorem ways_closed (cs : List Char) :
    (Pattern.seq (.kept (.run isNameChar)) (.char ']')).ways cs =
      (longest? isNameChar cs).toList.flatMap closeBracket := by
  obtain ⟨shorter, hruns, hshorter⟩ := runs_eq isNameChar cs
  have hclose (m : Match) :
      ((Pattern.char ']').ways m.keep.rest).map m.keep.andThen = closeBracket m := by
    rw [ways, closeBracket, Match.keep]
    split <;> simp [Match.andThen]
  have hnone : shorter.flatMap closeBracket = [] := by
    rw [List.flatMap_eq_nil_iff]
    intro m hm
    obtain ⟨c, hc, hname⟩ := hshorter m hm
    refine if_neg fun hclosing => ?_
    rw [hclosing, Option.mem_some_iff] at hc
    rw [← hc] at hname
    exact absurd hname (by decide)
  rw [ways_seq, ways_kept_run, hruns, List.flatMap_map, List.flatMap_append]
  simp only [hclose, hnone, List.append_nil]

private theorem kept_part (cs : List Char) :
    ((partPattern.ways cs).head?.map fun m => m.kept.map String.ofList) =
      (bracketed? cs).map ([·]) := by
  cases cs with
  | nil => rfl
  | cons c rest =>
    by_cases hc : c = '['
    · subst hc
      have hopen : partPattern.ways ('[' :: rest) =
          ((longest? isNameChar rest).toList.flatMap closeBracket).map
            (Match.andThen ⟨['['], [], rest⟩) := by
        rw [partPattern, ways_seq, ways, List.head?_cons, if_pos rfl, List.flatMap_singleton,
          ways_closed]
        rfl
      rw [hopen, bracketed?, longest?]
      cases htake : rest.takeWhile isNameChar with
      | nil => rfl
      | cons d taken =>
        cases hdrop : rest.dropWhile isNameChar with
        | nil => simp [closeBracket]
        | cons e tail =>
          by_cases he : e = ']'
          · subst he
            simp [closeBracket, Match.andThen]
          · simp [closeBracket, he]
    · have hclosed : partPattern.ways (c :: rest) = [] := by
        rw [partPattern, ways_seq, ways, if_neg (by simpa using hc), List.flatMap_nil]
      have hnone : bracketed? (c :: rest) = none := by
        simp [bracketed?, hc]
      rw [hclosed, hnone]
      rfl

private theorem ofMatch_option (taken cs : List Char) :
    ((((Pattern.option partPattern).ways cs).map (Match.andThen ⟨taken, [taken], cs⟩)).head?.map
      ofMatch) = some ⟨String.ofList taken, bracketed? cs⟩ := by
  have hpart := kept_part cs
  rw [ways, List.map_append, List.head?_append, List.head?_map]
  cases hhead : (partPattern.ways cs).head? with
  | none =>
    rw [hhead, Option.map_none, eq_comm, Option.map_eq_none_iff] at hpart
    rw [hpart]
    rfl
  | some m =>
    rw [hhead, Option.map_some, eq_comm, Option.map_eq_some_iff] at hpart
    obtain ⟨key, hkey, hkept⟩ := hpart
    have hfirst : m.kept[0]?.map String.ofList = some key := by
      rw [← List.getElem?_map, ← hkept]
      rfl
    rw [hkey, ← hfirst]
    rfl

/-- Where the pattern matches the front of a text, the first way to match takes the longest run. -/
private theorem head?_ways_pattern (cs : List Char) :
    (pattern.ways cs).head?.map ofMatch =
      match cs.takeWhile isNameChar with
      | [] => none
      | c :: taken =>
        some ⟨String.ofList (c :: taken), bracketed? (cs.dropWhile isNameChar)⟩ := by
  have hruns := head?_runs isNameChar cs
  rw [pattern, ways_seq, ways_kept_run, List.flatMap_map]
  rw [longest?] at hruns
  cases htake : cs.takeWhile isNameChar with
  | nil =>
    rw [htake, List.head?_eq_none_iff] at hruns
    rw [hruns]
    rfl
  | cons c taken =>
    rw [htake] at hruns
    obtain ⟨shorter, hshorter⟩ := List.head?_eq_some_iff.mp hruns
    have hoption := ofMatch_option (c :: taken) (cs.dropWhile isNameChar)
    rw [hshorter, List.flatMap_cons, List.head?_append, Option.map_or, Match.keep, hoption]
    rfl

/-- The name in a text is what a search for the pattern finds. -/
theorem parse?_eq_search (s : String) : parse? s = (pattern.search s.toList).map ofMatch := by
  rw [parse?]
  induction s.toList with
  | nil => rfl
  | cons c cs ih =>
    have hhead := head?_ways_pattern (c :: cs)
    by_cases hc : isNameChar c
    · rw [List.dropWhile_cons_of_neg (by simp [hc]), search, Option.map_or, hhead,
        List.takeWhile_cons_of_pos hc, List.dropWhile_cons_of_pos hc]
      rfl
    · rw [List.takeWhile_cons_of_neg hc] at hhead
      rw [List.dropWhile_cons_of_pos (by simp [hc]), search, Option.map_or, hhead]
      exact ih

end TermName

end VisibilityRules
