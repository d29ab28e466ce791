import ServiceGen.Text.ClusterTable

/-!
User-perceived characters: the extended grapheme clusters of Unicode.  `clusters` cuts a text into
them; whether a character joins the cluster before it depends on what the cluster holds so far,
which `Cluster.State` keeps.
-/

namespace ServiceGen.Text

/-- What a character is for the rules that cut a text into clusters. -/
inductive BreakClass where
  | carriageReturn | lineFeed | control | extend | joiner | regional | prepend | spacing
  | leading | vowel | trailing | openSyllable | closedSyllable | other
deriving DecidableEq, Repr

/-- The class of a character.  A precomposed Hangul syllable is open when its place is a multiple
of twenty-eight; the vowel signs of Kirat Rai combine as those of Hangul do. -/
def breakClass (c : Char) : BreakClass :=
  let n := c.toNat
  if n == 0xd then .carriageReturn
  else if n == 0xa then .lineFeed
  else if 0x20 ≤ n && n < 0x7f then .other
  else if n == 0x200d then .joiner
  else if 0x1f1e6 ≤ n && n ≤ 0x1f1ff then .regional
  else if (0x1100 ≤ n && n ≤ 0x115f) || (0xa960 ≤ n && n ≤ 0xa97c) then .leading
  else if (0x1160 ≤ n && n ≤ 0x11a7) || (0xd7b0 ≤ n && n ≤ 0xd7c6) || n == 0x16d63
      || (0x16d67 ≤ n && n ≤ 0x16d6a) then .vowel
  else if (0x11a8 ≤ n && n ≤ 0x11ff) || (0xd7cb ≤ n && n ≤ 0xd7fb) then .trailing
  else if 0xac00 ≤ n && n ≤ 0xd7a3 then
    if (n - 0xac00) % 28 == 0 then .openSyllable else .closedSyllable
  else if inRanges extendRanges n then .extend
  else if inRanges spacingRanges n then .spacing
  else if inRanges prependRanges n then .prepend
  else if inRanges controlRanges n then .control
  else .other

/-- A pictograph, two of which a joiner can make one. -/
def isPictograph (c : Char) : Bool :=
  inRanges pictographRanges c.toNat

/-- A consonant of a script that writes conjuncts. -/
def isConsonant (c : Char) : Bool :=
  inRanges consonantRanges c.toNat

/-- A sign that makes a conjunct of the consonants around it. -/
def isLinker (c : Char) : Bool :=
  inRanges linkerRanges c.toNat

/-- How far a cluster has come towards a linked sequence: an anchor has been seen, then possibly
the character that links it to another one. -/
inductive Link where
  | none | anchored | linked
deriving DecidableEq, Repr

/-- What the next character has to know about the cluster before it. -/
structure ClusterState where
  last : BreakClass
  /-- The cluster ends in an odd number of regional indicators. -/
  oddRegional : Bool
  /-- A pictograph, extending marks, then a joiner. -/
  picture : Link
  /-- A consonant, extending marks, among them a linker. -/
  conjunct : Link

/-- The state after the character `c`, which continues the cluster in state `s?` or begins one. -/
def ClusterState.after (s? : Option ClusterState) (c : Char) : ClusterState :=
  let cls := breakClass c
  let picture := (s?.map (·.picture)).getD .none
  let conjunct := (s?.map (·.conjunct)).getD .none
  { last := cls
    oddRegional := cls = .regional && !((s?.map (·.oddRegional)).getD false)
    picture :=
      if isPictograph c then .anchored
      else if cls = .extend && picture = .anchored then .anchored
      else if cls = .joiner && picture = .anchored then .linked
      else .none
    conjunct :=
      if isConsonant c then .anchored
      else if isLinker c && conjunct ≠ .none then .linked
      else if (cls = .extend || cls = .joiner) && c.toNat ≠ 0x200c then conjunct
      else .none }

/-- The character `c` belongs to the cluster in state `s`. -/
def ClusterState.joins (s : ClusterState) (c : Char) : Bool :=
  match s.last, breakClass c with
  | .carriageReturn, .lineFeed => true
  | .carriageReturn, _ | .lineFeed, _ | .control, _ => false
  | _, .carriageReturn | _, .lineFeed | _, .control => false
  | _, .extend | _, .joiner | _, .spacing => true
  | .prepend, _ => true
  | .leading, .leading | .leading, .vowel | .leading, .openSyllable
  | .leading, .closedSyllable => true
  | .openSyllable, .vowel | .openSyllable, .trailing | .vowel, .vowel | .vowel, .trailing => true
  | .closedSyllable, .trailing | .trailing, .trailing => true
  | .regional, .regional => s.oddRegional
  | _, _ => (s.picture = .linked && isPictograph c) || (s.conjunct = .linked && isConsonant c)

/-- The clusters of the characters that follow a cluster in state `s`, the first of which is the
rest of that cluster. -/
def clustersFrom (s : ClusterState) : List Char → List (List Char)
  | [] => [[]]
  | c :: cs =>
      if s.joins c then
        match clustersFrom (.after (some s) c) cs with
        | [] => [[c]]
        | p :: ps => (c :: p) :: ps
      else
        match clustersFrom (.after none c) cs with
        | [] => [[], [c]]
        | p :: ps => [] :: (c :: p) :: ps

/-- The user-perceived characters of a text. -/
def clusters : List Char → List (List Char)
  | [] => []
  | c :: cs =>
      match clustersFrom (.after none c) cs with
      | [] => [[c]]
      | p :: ps => (c :: p) :: ps

end ServiceGen.Text
