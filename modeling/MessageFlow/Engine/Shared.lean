import MessageFlow.Engine.Basic

/-!
Fan-outs on the message itself. The branches wait on a stack, so that a cycle through a fan-out nests
nothing: the branches of a fan-out come before everything that waited already.
-/

namespace MessageFlow

/-- A path that is still to be walked: its first node, the hops left to it, and which of the roots of the
walk it descends from. -/
structure PendingPath where
  node : Nat
  hopsLeft : Nat
  root : Nat
deriving DecidableEq, Inhabited

namespace Engine

/-- Walk all waiting paths, and the paths that they fan out to. A failed path marks its root. -/
def drain (e : Engine) (pending : List PendingPath) (failed : List Bool) (p : Progress) :
    List Bool × Progress :=
  match pending with
  | [] => (failed, p)
  | path :: rest =>
    match _h : e.follow path.hopsLeft path.node p with
    | (.done, q) => e.drain rest failed q
    | (.failed, q) => e.drain rest (failed.set path.root true) q
    | (.fanOut _ branches hops, q) =>
      e.drain (branches.map (⟨·, hops, path.root⟩) ++ rest) failed q
termination_by (p.visitsLeft, pending.length)
decreasing_by
  all_goals
    have hv := visitsLeft_follow e path.hopsLeft path.node p
    simp_all only [List.length_cons, Prod.lex_def]
    grind

/-- Walk from several roots and count those below which some path failed. -/
def walkShared (e : Engine) (roots : List Nat) (hopsLeft : Nat) (p : Progress) : Nat × Progress :=
  let pending := roots.zipIdx.map (fun r => ⟨r.1, hopsLeft, r.2⟩)
  let (failed, q) := e.drain pending (List.replicate roots.length false) p
  (failed.count true, q)

end Engine
end MessageFlow
