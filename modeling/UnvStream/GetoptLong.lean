import Mathlib.Data.List.Forall2
import Mathlib.Data.List.TakeWhile

/-!
# The options of a command line

The scan of `getopt_long` in its default order. A word has short options behind one '-', of which
the last may take the rest of the word or the next word as its argument, or one long option behind
"--", which may be abbreviated and has its argument behind '=' or in the next word. Other words are
skipped. `Written` says how options are written, and the scan finds exactly what is written.
-/

namespace GetoptLong

universe u
variable {ω : Type u}

abbrev Word := List Char

structure LongOption (ω : Type u) where
  name : Word
  argument : Bool
  value : ω

/-- The options a program knows, with whether they take an argument. -/
structure OptionTable (ω : Type u) where
  short : Char → Option (Bool × ω)
  long : List (LongOption ω)
  dash : short '-' = none
  named : ∀ o ∈ long, o.name ≠ [] ∧ '=' ∉ o.name
  distinct : long.Pairwise fun o p => o.name ≠ p.name

/-- What a call returns and leaves in `optarg`; `refused` is the result '?' for a word that is
understood as no option. -/
inductive Result (ω : Type u) where
  | option (value : ω) (optarg : Option Word)
  | refused
  deriving DecidableEq

/-- The options of a word, and the one that waits for the next word as its argument. -/
structure Scanned (ω : Type u) where
  results : List (Result ω)
  waiting : Option ω

def cluster (t : OptionTable ω) : Word → Scanned ω
  | [] => ⟨[], none⟩
  | c :: cs =>
    match t.short c with
    | none => { cluster t cs with results := .refused :: (cluster t cs).results }
    | some (false, value) =>
      { cluster t cs with results := .option value none :: (cluster t cs).results }
    | some (true, value) =>
      if cs = [] then ⟨[], some value⟩ else ⟨[.option value (some cs)], none⟩

/-- Characters that are options without arguments, with what they stand for. -/
def Flags (t : OptionTable ω) (cs : List Char) (results : List (Result ω)) : Prop :=
  List.Forall₂ (fun c r => ∃ value, t.short c = some (false, value) ∧ r = .option value none) cs
    results

/-- The options before a word that ends the cluster, or before the character that ends it. -/
theorem cluster_flags {t : OptionTable ω} {cs : List Char} {results : List (Result ω)}
    (known : Flags t cs results) (rest : Word) :
    cluster t (cs ++ rest) =
      { cluster t rest with results := results ++ (cluster t rest).results } := by
  induction known with
  | nil => rfl
  | cons here _ ih =>
    obtain ⟨value, short, rfl⟩ := here
    simp only [List.cons_append, cluster, short, ih]

theorem cluster_end {t : OptionTable ω} {c : Char} {value : ω}
    (takes : t.short c = some (true, value)) : cluster t [c] = ⟨[], some value⟩ := by
  simp only [cluster, takes, if_pos]

theorem cluster_joined {t : OptionTable ω} {c : Char} {value : ω} {optarg : Word}
    (takes : t.short c = some (true, value)) (nonempty : optarg ≠ []) :
    cluster t (c :: optarg) = ⟨[.option value (some optarg)], none⟩ := by
  simp only [cluster, takes, if_neg nonempty]

variable [DecidableEq ω]

/-- The option of a name, or the one of which it is the beginning if there is no other. -/
def matchLong (t : OptionTable ω) (name : Word) : Option (LongOption ω) :=
  match t.long.find? (fun o => decide (o.name = name)) with
  | some o => some o
  | none =>
    match t.long.filter (fun o => name.isPrefixOf o.name) with
    | [] => none
    | o :: os =>
      if ∀ p ∈ os, p.argument = o.argument ∧ p.value = o.value then some o else none

/-- A long option, whose argument begins behind the first '='. -/
def longWord (t : OptionTable ω) (text : Word) : Scanned ω :=
  match matchLong t (text.takeWhile (· ≠ '=')), text.dropWhile (· ≠ '=') with
  | none, _ => ⟨[.refused], none⟩
  | some o, [] => if o.argument then ⟨[], some o.value⟩ else ⟨[.option o.value none], none⟩
  | some o, _ :: optarg =>
    if o.argument then ⟨[.option o.value (some optarg)], none⟩ else ⟨[.refused], none⟩

/-- Whether a word is skipped. -/
def isOperand : Word → Bool
  | '-' :: _ :: _ => false
  | _ => true

def scanWord (t : OptionTable ω) : Word → Scanned ω
  | _ :: c :: cs => if c = '-' then longWord t cs else cluster t (c :: cs)
  | _ => ⟨[], none⟩

def getoptLong (t : OptionTable ω) : List Word → List (Result ω)
  | [] => []
  | word :: words =>
    if isOperand word then getoptLong t words
    else if word = ['-', '-'] then []
    else
      match (scanWord t word).waiting with
      | none => (scanWord t word).results ++ getoptLong t words
      | some value =>
        match words with
        | [] => (scanWord t word).results ++ [.refused]
        | optarg :: words =>
          (scanWord t word).results ++ .option value (some optarg) :: getoptLong t words

/-- The ways to write options in one word or in two. -/
inductive Spelled (t : OptionTable ω) : List Word → List (Result ω) → Prop
  | flags {cs results} (known : Flags t cs results) (nonempty : cs ≠ []) :
    Spelled t ['-' :: cs] results
  | separate {cs results c value} (known : Flags t cs results)
    (takes : t.short c = some (true, value)) (optarg : Word) :
    Spelled t ['-' :: (cs ++ [c]), optarg] (results ++ [.option value (some optarg)])
  | joined {cs results c value optarg} (known : Flags t cs results)
    (takes : t.short c = some (true, value)) (nonempty : optarg ≠ []) :
    Spelled t ['-' :: (cs ++ c :: optarg)] (results ++ [.option value (some optarg)])
  | longFlag {name o} (meant : matchLong t name = some o) (plain : o.argument = false)
    (nonempty : name ≠ []) (unequal : '=' ∉ name) :
    Spelled t ['-' :: '-' :: name] [.option o.value none]
  | longSeparate {name o} (meant : matchLong t name = some o) (takes : o.argument = true)
    (nonempty : name ≠ []) (unequal : '=' ∉ name) (optarg : Word) :
    Spelled t ['-' :: '-' :: name, optarg] [.option o.value (some optarg)]
  | longJoined {name o} (meant : matchLong t name = some o) (takes : o.argument = true)
    (unequal : '=' ∉ name) (optarg : Word) :
    Spelled t ['-' :: '-' :: (name ++ '=' :: optarg)] [.option o.value (some optarg)]

theorem matchLong_listed {t : OptionTable ω} {o : LongOption ω} (listed : o ∈ t.long) :
    matchLong t o.name = some o := by
  have found : t.long.find? (fun p => decide (p.name = o.name)) = some o := by
    have distinct := t.distinct
    generalize t.long = options at listed distinct
    induction options with
    | nil => cases listed
    | cons p options ih =>
      obtain ⟨apart, distinct⟩ := List.pairwise_cons.mp distinct
      rcases List.mem_cons.mp listed with rfl | later
      · exact List.find?_cons_of_pos (decide_eq_true rfl)
      · rw [List.find?_cons_of_neg (by simpa using apart o later)]
        exact ih later distinct
  rw [matchLong, found]

theorem getoptLong_stop (t : OptionTable ω) (operands : List Word) :
    getoptLong t (['-', '-'] :: operands) = [] := by
  have dashed : isOperand ['-', '-'] = false := rfl
  rw [getoptLong, dashed, if_neg Bool.false_ne_true, if_pos rfl]

theorem getoptLong_operand {t : OptionTable ω} {word : Word} (plain : isOperand word = true)
    (words : List Word) : getoptLong t (word :: words) = getoptLong t words := by
  rw [getoptLong, if_pos plain]

/-- A word with options. -/
structure HasOptions (word : Word) : Prop where
  dashed : isOperand word = false
  further : word ≠ ['-', '-']

theorem getoptLong_whole {t : OptionTable ω} {word : Word} (options : HasOptions word)
    (whole : (scanWord t word).waiting = none) (words : List Word) :
    getoptLong t (word :: words) = (scanWord t word).results ++ getoptLong t words := by
  rw [getoptLong, if_neg (by simp [options.dashed]), if_neg options.further, whole]

theorem getoptLong_waiting {t : OptionTable ω} {word : Word} {value : ω}
    (options : HasOptions word) (waiting : (scanWord t word).waiting = some value)
    (optarg : Word) (words : List Word) :
    getoptLong t (word :: optarg :: words) =
      (scanWord t word).results ++ [.option value (some optarg)] ++ getoptLong t words := by
  rw [getoptLong, if_neg (by simp [options.dashed]), if_neg options.further, waiting,
    List.append_assoc]
  rfl

/-- The first character of a cluster is an option, and so is no '-'. -/
theorem cluster_word {t : OptionTable ω} {cs : List Char} {results : List (Result ω)} {c : Char}
    {found : Bool × ω} (known : Flags t cs results) (last : t.short c = some found)
    (rest : Word) : HasOptions ('-' :: (cs ++ c :: rest)) ∧
      scanWord t ('-' :: (cs ++ c :: rest)) = cluster t (cs ++ c :: rest) := by
  obtain ⟨d, ds, text, found', short⟩ : ∃ d ds, cs ++ c :: rest = d :: ds ∧
      ∃ found', t.short d = some found' := by
    cases known with
    | nil => exact ⟨c, rest, rfl, found, last⟩
    | cons here _ =>
      obtain ⟨value, short, _⟩ := here
      exact ⟨_, _, rfl, _, short⟩
  have apart : d ≠ '-' := by
    rintro rfl
    rw [t.dash] at short
    cases short
  rw [text]
  refine ⟨⟨rfl, ?_⟩, if_neg apart⟩
  intro dashes
  exact apart (List.cons.inj (List.cons.inj dashes).2).1

theorem flags_word {t : OptionTable ω} {cs : List Char} {results : List (Result ω)}
    (known : Flags t cs results) (nonempty : cs ≠ []) : HasOptions ('-' :: cs) ∧
      scanWord t ('-' :: cs) = ⟨results, none⟩ := by
  have whole : cluster t cs = ⟨results, none⟩ := by
    have ended := cluster_flags known []
    rwa [List.append_nil, cluster, List.append_nil] at ended
  cases known with
  | nil => exact absurd rfl nonempty
  | @cons c r cs rs here rest =>
    obtain ⟨value, short, _⟩ := here
    obtain ⟨options, scanned⟩ := cluster_word .nil short cs
    exact ⟨options, scanned.trans whole⟩

theorem long_word {t : OptionTable ω} {text : Word} (nonempty : text ≠ []) :
    HasOptions ('-' :: '-' :: text) ∧ scanWord t ('-' :: '-' :: text) = longWord t text := by
  refine ⟨⟨rfl, ?_⟩, by rw [scanWord, if_pos rfl]⟩
  intro dashes
  exact nonempty (List.cons.inj (List.cons.inj dashes).2).2

theorem longWord_whole (t : OptionTable ω) {name : Word} (unequal : '=' ∉ name) :
    longWord t name = match matchLong t name with
      | none => ⟨[.refused], none⟩
      | some o => if o.argument then ⟨[], some o.value⟩ else ⟨[.option o.value none], none⟩ := by
  have plain : ∀ c ∈ name, decide (c ≠ '=') = true := by
    intro c among
    exact decide_eq_true fun same => unequal (same ▸ among)
  rw [longWord, List.takeWhile_eq_self_iff.mpr plain, List.dropWhile_eq_nil_iff.mpr plain]
  cases matchLong t name <;> rfl

theorem longWord_joined (t : OptionTable ω) {name : Word} (unequal : '=' ∉ name)
    (optarg : Word) : longWord t (name ++ '=' :: optarg) = match matchLong t name with
      | none => ⟨[.refused], none⟩
      | some o =>
        if o.argument then ⟨[.option o.value (some optarg)], none⟩ else ⟨[.refused], none⟩ := by
  have plain : ∀ c ∈ name, decide (c ≠ '=') = true := by
    intro c among
    exact decide_eq_true fun same => unequal (same ▸ among)
  rw [longWord, List.takeWhile_append_of_pos plain, List.dropWhile_append_of_pos plain,
    List.takeWhile_cons_of_neg (by decide), List.dropWhile_cons_of_neg (by decide),
    List.append_nil]
  cases matchLong t name <;> rfl

/-- The scan finds the options that begin a command line. -/
theorem getoptLong_spelled {t : OptionTable ω} {word : List Word} {now : List (Result ω)}
    (here : Spelled t word now) (words : List Word) :
    getoptLong t (word ++ words) = now ++ getoptLong t words := by
  cases here with
  | flags known nonempty =>
    obtain ⟨options, scanned⟩ := flags_word known nonempty
    exact (getoptLong_whole options (by rw [scanned]) words).trans (by rw [scanned])
  | @separate cs results c value known takes optarg =>
    obtain ⟨options, scanned⟩ := cluster_word known takes []
    rw [cluster_flags known, cluster_end takes, List.append_nil] at scanned
    exact (getoptLong_waiting options (by rw [scanned]) optarg words).trans (by rw [scanned])
  | @joined cs results c value optarg known takes nonempty =>
    obtain ⟨options, scanned⟩ := cluster_word known takes optarg
    rw [cluster_flags known, cluster_joined takes nonempty] at scanned
    exact (getoptLong_whole options (by rw [scanned]) words).trans (by rw [scanned])
  | @longFlag name o meant plain nonempty unequal =>
    obtain ⟨options, scanned⟩ := long_word (t := t) nonempty
    simp only [longWord_whole t unequal, meant, plain] at scanned
    exact (getoptLong_whole options (by rw [scanned]; rfl) words).trans (by rw [scanned]; rfl)
  | @longSeparate name o meant takes nonempty unequal optarg =>
    obtain ⟨options, scanned⟩ := long_word (t := t) nonempty
    simp only [longWord_whole t unequal, meant, takes, if_pos] at scanned
    exact (getoptLong_waiting options (by rw [scanned]) optarg words).trans (by rw [scanned]; rfl)
  | @longJoined name o meant takes unequal optarg =>
    have nonempty : name ++ '=' :: optarg ≠ [] := List.append_ne_nil_of_right_ne_nil _ nofun
    obtain ⟨options, scanned⟩ := long_word (t := t) nonempty
    simp only [longWord_joined t unequal, meant, takes, if_pos] at scanned
    exact (getoptLong_whole options (by rw [scanned]) words).trans (by rw [scanned])

theorem spelled_nonempty {t : OptionTable ω} {words : List Word} {now : List (Result ω)}
    (here : Spelled t words now) : words ≠ [] := by
  cases here <;> exact List.cons_ne_nil _ _

/-- Whether the last option of the words waits for the word behind them as its argument. -/
def awaits (t : OptionTable ω) : List Word → Bool
  | [] => false
  | word :: words =>
    if isOperand word then awaits t words
    else if word = ['-', '-'] then false
    else
      match (scanWord t word).waiting with
      | none => awaits t words
      | some _ =>
        match words with
        | [] => true
        | _ :: words => awaits t words

/-- The scan behind some words does not depend on them, whether they are understood or not, if none
of their options takes its argument from there. -/
theorem getoptLong_behind {t : OptionTable ω} {before : List Word}
    (settled : awaits t before = false) {words words' : List Word}
    (same : getoptLong t words = getoptLong t words') :
    getoptLong t (before ++ words) = getoptLong t (before ++ words') := by
  induction before using getoptLong.induct t with
  | case1 => exact same
  | case2 word before plain ih =>
    rw [awaits.eq_def] at settled
    simp only [if_pos plain] at settled
    rw [List.cons_append, List.cons_append, getoptLong_operand plain, getoptLong_operand plain,
      ih settled]
  | case3 before plain =>
    rw [List.cons_append, List.cons_append, getoptLong_stop, getoptLong_stop]
  | case4 word before dashed further whole ih =>
    have options : HasOptions word := ⟨by simpa using dashed, further⟩
    rw [awaits.eq_def] at settled
    simp only [if_neg dashed, if_neg further, whole] at settled
    rw [List.cons_append, List.cons_append, getoptLong_whole options whole,
      getoptLong_whole options whole, ih settled]
  | case5 word dashed further value waiting =>
    rw [awaits, if_neg dashed, if_neg further, waiting] at settled
    cases settled
  | case6 word dashed further value waiting optarg before ih =>
    have options : HasOptions word := ⟨by simpa using dashed, further⟩
    rw [awaits, if_neg dashed, if_neg further, waiting] at settled
    simp only [List.cons_append]
    rw [getoptLong_waiting options waiting, getoptLong_waiting options waiting, ih settled]

/-- The spellings of an option with its argument. -/
def spellings (c : Char) (name optarg : Word) : List (List Word) :=
  [[['-', c], optarg], ['-' :: '-' :: name, optarg], ['-' :: '-' :: (name ++ '=' :: optarg)]] ++
    if optarg = [] then [] else [['-' :: c :: optarg]]

theorem spelled_of_spelling {t : OptionTable ω} {c : Char} {o : LongOption ω}
    (takes : t.short c = some (true, o.value)) (listed : o ∈ t.long) (argument : o.argument = true)
    {optarg : Word} {words : List Word} (spelling : words ∈ spellings c o.name optarg) :
    Spelled t words [.option o.value (some optarg)] := by
  obtain ⟨nonempty, unequal⟩ := t.named o listed
  have meant := matchLong_listed listed
  rcases List.mem_append.mp spelling with always | joined
  · simp only [List.mem_cons, List.not_mem_nil, or_false] at always
    obtain rfl | rfl | rfl := always
    · exact .separate .nil takes optarg
    · exact .longSeparate meant argument nonempty unequal optarg
    · exact .longJoined meant argument unequal optarg
  · split at joined
    · cases joined
    · rename_i some_argument
      obtain rfl := List.mem_singleton.mp joined
      exact .joined .nil takes some_argument

end GetoptLong
