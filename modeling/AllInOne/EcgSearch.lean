import AllInOne.EcgBounds
import AllInOne.NibpFalling

namespace AllInOne.EcgSearch

open CFloat EcgBounds EcgLabels
open NibpFalling (meanN)

/-- `a <= b` on floats. -/
def le (a b : Single) : Bool := !FloatOps.lt b a

def maxF (pt : ℕ → Single) (nLen : ℕ) : Single :=
  ((List.range nLen).map pt).foldl (fun max x => if FloatOps.lt max x then x else max) (pt 0)

def minF (pt : ℕ → Single) (nLen : ℕ) : Single :=
  ((List.range nLen).map pt).foldl (fun min x => if FloatOps.lt x min then x else min) (pt 0)

/-- The first of the lowest points. -/
def minIndexN (pt : ℕ → Int) (nLen : ℕ) : ℕ :=
  (List.range nLen).foldl (fun index i => if pt i < pt index then i else index) 0

/-- A factor of the sampling rate, cut to whole samples. -/
def samples (seconds : ℚ) : Int := FloatOps.trunc (lit seconds * ofInt sampleRate : Single)

/-- The first of the places from 1 on where the wave comes up to the line. -/
def checkRiseEdgeByLine (pt : ℕ → Single) (len : ℕ) (threshold : Single) : Option ℕ :=
  ((List.range len).tail.find? fun i => le (pt (i - 1)) threshold && le threshold (pt i))

/-- The place before the first of those where it comes down to it. -/
def checkFallEdgeByLine (pt : ℕ → Single) (len : ℕ) (threshold : Single) : Option ℕ :=
  ((List.range len).tail.find? fun i => le threshold (pt (i - 1)) && le (pt i) threshold).map (· - 1)

/-- A rise by more than the threshold over three samples of the channel. -/
def checkRiseEdge (pt : ℕ → Int) (len : ℕ) (threshold : Single) : Option ℕ :=
  (List.range len).find? fun i => 3 ≤ i && FloatOps.lt threshold (ofInt (pt i - pt (i - 3)))

/-- The answers -1, 0 and 1 of the two R wave classifiers; the last with its place and its height. -/
inductive RAnswer
  | wrongLength
  | no
  | yes (index : ℕ) (high : Int)
  deriving DecidableEq

/-- How far three samples lie from their mean, in units of the swing. -/
def roughness (pData : ℕ → Int) (d : Single) (i : ℕ) : Single :=
  let mean := (pData i + pData (i + 1) + pData (i + 2)).tdiv 3
  let sum := (List.range 3).foldl (fun sum j =>
    sum + ofInt ((pData (i + j) - mean) * (pData (i + j) - mean))) (lit 0 : Single)
  sum / lit 3 / d

/-- From `start` downwards to 6, the first place with four more smooth ones before it. -/
def jointPoint (t1 : ℕ → Single) : ℕ → ℕ
  | 0 => 0
  | ii + 1 =>
    if ii + 1 ≤ 5 then 0
    else if (List.range 5).all fun j => FloatOps.lt (t1 (ii + 1 - j)) (lit 4) then ii + 1
    else jointPoint t1 ii

/-- The highest point of the ground line before the joint, as a share of the flank. -/
def groundShare (pData : ℕ → Int) (joint count1 dLen : ℕ) (dd : Single) : Single :=
  (List.range dLen).foldl (fun v4 i =>
    let tmpf : Single := ofInt (pData (joint - count1 + i) - pData joint) / dd
    if FloatOps.lt v4 tmpf then tmpf else v4) (lit 0)

/-- The rate and the height threshold are the same in all calls, the threshold is not looked at. -/
def quickRClassifier (pData : ℕ → Int) (len : ℕ) : RAnswer :=
  if 500 < len ∨ len < 50 then .wrongLength
  else
    let mindex := maxIndexN pData len
    let maxD := pData mindex
    if mindex ≤ len / 2 then .no
    else if len - mindex < 3 then .no
    else
      let swing : Single := ofInt (maxD - pData (minIndexN pData len))
      let d := swing * swing / lit 10000
      let joint := jointPoint (roughness pData d) (mindex - 3)
      let halfWide : Single := ofInt (mindex - joint : ℕ) / ofInt sampleRate * lit 1000
      let count1 := (samples 0.083).toNat
      let count2 := (samples 0.028).toNat
      let dd : Single := ofInt (maxD - pData joint)
      if joint = 0 then .no
      else if FloatOps.lt halfWide (lit 12.5) || FloatOps.lt (lit 75) halfWide then .no
      else if joint < count1 ∨ joint < count2 then .no
      else if len < count1 ∨ len < count2 then .no
      else if FloatOps.lt (lit 22) (groundShare pData joint count1 (count1 - count2) dd) then .no
      else .yes mindex (FloatOps.trunc dd)

/-- The part that goes to the quick one has a length it takes, so the first of its answers does not
come up. -/
def fullRClassifier (pData : ℕ → Int) (len : ℕ) : RAnswer :=
  if 500 < len ∨ len < 100 then .wrongLength
  else
    let top := maxIndexN (fun i => pData (len / 4 + i)) (len / 2)
    let mindex := top + len / 4
    let maxD := pData mindex
    let leftWide := (samples 0.15).toNat
    let rightWide := (samples 0.02).toNat
    if mindex < leftWide ∨ len ≤ mindex + rightWide then .no
    else
      match quickRClassifier (fun i => pData (mindex - leftWide + i)) (leftWide + rightWide) with
      | .yes _ high =>
        let me := meanN ((List.range (len - mindex)).map fun i => pData (mindex + i))
        let v1 : Single := ofInt (maxD - me) * lit 100 / ofInt high
        if FloatOps.lt v1 (lit 20) then .no else .yes mindex high
      | answer => answer

/-- `flag` with the places found so far. -/
structure Crossing where
  flag : ℕ
  p1 : ℕ
  p2 : ℕ
  deriving DecidableEq

/-- One turn of the loop that looks for a bump to one side of the `near` line followed by a way to
the `far` one. `out` and `back` say that the wave crosses the near line outwards or backwards between a
place and the next, `away` that it crosses the far one. -/
def crossingTurn (out back away : ℕ → Bool) (c : Crossing) (i : ℕ) : Crossing :=
  if c.flag = 3 then c
  else if out i then { c with flag := 1, p1 := i }
  else if back i then (if c.flag = 1 then { c with flag := 2, p2 := i + 1 } else c)
  else if away i then (if c.flag = 2 then { c with flag := 3 } else c)
  else c

def crossings (out back away : ℕ → Bool) (len : ℕ) : Crossing :=
  (List.range (len - 1)).foldl (crossingTurn out back away) ⟨0, 0, 0⟩

/-- The wave comes up to a line, or down to it, between a place and the next. -/
def risesTo (pData : ℕ → Int) (line : Int) (i : ℕ) : Bool :=
  decide (pData i ≤ line) && decide (line ≤ pData (i + 1))

def fallsTo (pData : ℕ → Int) (line : Int) (i : ℕ) : Bool :=
  decide (line ≤ pData i) && decide (pData (i + 1) ≤ line)

/-- The answers -1 and 0 of the PVC classifier, and 1 and 2 with the place. -/
inductive PvcAnswer
  | wrongLength
  | no
  | left (index : ℕ)
  | right (index : ℕ)
  deriving DecidableEq

def pvcClassifier (pData : ℕ → Int) (len : ℕ) : PvcAnswer :=
  if 500 < len ∨ len < 200 then .wrongLength
  else
    let maxI := maxIndexN pData len
    let minI := minIndexN pData len
    let midLine := (pData maxI + pData minI).tdiv 2
    let di := pData maxI - pData minI
    let upLine := FloatOps.trunc (ofInt midLine + lit 0.45 * ofInt di : Single)
    let downLine := FloatOps.trunc (ofInt midLine - lit 0.45 * ofInt di : Single)
    let c := if maxI < minI then
        crossings (risesTo pData upLine) (fallsTo pData upLine) (fallsTo pData downLine) len
      else crossings (fallsTo pData downLine) (risesTo pData downLine) (risesTo pData upLine) len
    let wide : Single := if c.flag = 3 then
        ofInt ((c.p2 : Int) - c.p1) / ofInt sampleRate * lit 1000 else lit 0
    if FloatOps.lt wide (lit 9) || FloatOps.lt (lit 46) wide then .no
    else if maxI < minI then .left maxI
    else .right maxI

end AllInOne.EcgSearch
