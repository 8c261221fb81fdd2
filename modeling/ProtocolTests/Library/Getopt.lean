import ProtocolTests.Library.CString

/-! The scan of GNU `getopt` over an argument vector without its program name.
Operands are permuted behind the options, so the options come out as if the
operands were not there. Option strings with a leading ':', '+' or '-' and
optional arguments ("::") are not covered. -/
namespace ProtocolTests.Library.Getopt
open CString

/-- What one call of `getopt` returns, with `optarg` where the option takes an argument. -/
structure Returned where
  option : Char
  optarg : Option Text
  deriving DecidableEq

inductive Declared
  | unknown
  | plain
  | withArgument
  deriving DecidableEq

def declared (optstring : Text) (c : Char) : Declared :=
  if c = ':' then .unknown else
    match optstring.dropWhile (· ≠ c) with
    | [] => .unknown
    | _ :: ':' :: _ => .withArgument
    | _ => .plain

/-- The letters of one word after its '-'. The second part is the option whose
argument has to come from the next word. -/
def cluster (optstring : Text) : Text → List Returned × Option Char
  | [] => ([],none)
  | c :: rest =>
    match declared optstring c with
    | .unknown => let later := cluster optstring rest; (⟨'?',none⟩ :: later.1,later.2)
    | .plain => let later := cluster optstring rest; (⟨c,none⟩ :: later.1,later.2)
    | .withArgument => if rest = [] then ([],some c) else ([⟨c,some rest⟩],none)

/-- The scan with the option that still waits for its argument, if there is one.
The word "--" ends the options; an option left without its argument is reported as '?'. -/
def scan (optstring : Text) : Option Char → List Text → List Returned
  | none, [] => []
  | some _, [] => [⟨'?',none⟩]
  | some c, argument :: rest => ⟨c,some argument⟩ :: scan optstring none rest
  | none, word :: rest =>
    if word = ['-','-'] then [] else
      match word with
      | '-' :: c :: letters =>
        let found := cluster optstring (c :: letters)
        found.1 ++ scan optstring found.2 rest
      | _ => scan optstring none rest

def getopt (optstring : Text) (arguments : List Text) : List Returned := scan optstring none arguments

theorem getopt_nil (optstring : Text) : getopt optstring [] = [] := rfl

/-- An option letter that takes an argument, given as a word of its own, takes the
next word whatever that word looks like. -/
theorem getopt_argument (optstring : Text) (c : Char) (argument : Text) (rest : List Text)
    (dash : c ≠ '-') (known : declared optstring c = .withArgument) :
    getopt optstring (['-',c] :: argument :: rest) = ⟨c,some argument⟩ :: getopt optstring rest := by
  simp [getopt,scan,cluster,known,dash]

theorem getopt_plain (optstring : Text) (c : Char) (rest : List Text) (dash : c ≠ '-')
    (known : declared optstring c = .plain) :
    getopt optstring (['-',c] :: rest) = ⟨c,none⟩ :: getopt optstring rest := by
  simp [getopt,scan,cluster,known,dash]

theorem getopt_operand (optstring : Text) (c : Char) (letters : Text) (rest : List Text)
    (dash : c ≠ '-') : getopt optstring ((c :: letters) :: rest) = getopt optstring rest := by
  simp [getopt,scan,dash]

theorem cluster_unknown (optstring letters : Text)
    (strange : ∀ c ∈ letters, declared optstring c = .unknown) :
    cluster optstring letters = (List.replicate letters.length ⟨'?',none⟩,none) := by
  induction letters with
  | nil => rfl
  | cons c rest ih =>
    have tail := ih fun d member => strange d (by simp [member])
    simp [cluster,strange c (by simp),tail,List.replicate_succ]

/-- A word of letters that no option has is reported as so many unknown options
and consumes nothing else. -/
theorem getopt_unknown (optstring : Text) (c : Char) (letters : Text) (rest : List Text)
    (dash : c ≠ '-') (strange : ∀ d ∈ c :: letters, declared optstring d = .unknown) :
    getopt optstring (('-' :: c :: letters) :: rest) =
      List.replicate (letters.length+1) ⟨'?',none⟩ ++ getopt optstring rest := by
  simp [getopt,scan,dash,cluster_unknown optstring (c :: letters) strange]

end ProtocolTests.Library.Getopt
