import Mathlib.Data.List.Basic
import Mathlib.Data.List.Forall2

/-!
# Serving a log of requests

A server takes one request after the other from a queue.  What it is meant to do is
given by a function `serve` for a single request; a log of requests is served by
folding it, and `Follows` compares what a server really answered, up to a relation of
answers, with that fold.

A server may take several requests at a time.  It still follows the fold, if what it
does with a batch follows the requests of the batch (`Follows.append`).
-/

namespace RequestLog

universe u v w

variable {σ : Type u} {κ : Type v} {α : Type w}

/-- Serve the requests one by one, the oldest first, and collect the answers. -/
def serveAll (serve : σ → κ → List α × σ) : σ → List κ → List α × σ
  | s, [] => ([], s)
  | s, k :: ks =>
      ((serve s k).1 ++ (serveAll serve (serve s k).2 ks).1,
        (serveAll serve (serve s k).2 ks).2)

variable {serve : σ → κ → List α × σ}

@[simp] theorem serveAll_nil (s : σ) : serveAll serve s [] = ([], s) := by
  rfl

theorem serveAll_append (s : σ) (ks ls : List κ) :
    serveAll serve s (ks ++ ls) =
      ((serveAll serve s ks).1 ++ (serveAll serve (serveAll serve s ks).2 ls).1,
        (serveAll serve (serveAll serve s ks).2 ls).2) := by
  induction ks generalizing s with
  | nil =>
      rfl
  | cons k ks ih =>
      simp only [List.cons_append, serveAll, ih, List.append_assoc]

theorem serveAll_singleton (s : σ) (k : κ) :
    serveAll serve s [k] = serve s k := by
  simp [serveAll]

/-- The answers and the state are those of the requests, served one by one. -/
structure Follows (serve : σ → κ → List α × σ) (Same : α → α → Prop)
    (s : σ) (ks : List κ) (out : List α) (s' : σ) : Prop where
  answers : List.Forall₂ Same out (serveAll serve s ks).1
  state : s' = (serveAll serve s ks).2

variable {Same : α → α → Prop} {s s' s'' : σ} {ks ls : List κ} {out out' : List α}

theorem Follows.nil : Follows serve Same s [] [] s where
  answers := .nil
  state := rfl

theorem Follows.single (hrefl : ∀ a, Same a a) (k : κ) :
    Follows serve Same s [k] (serve s k).1 (serve s k).2 := by
  have hsame : List.Forall₂ Same (serve s k).1 (serve s k).1 :=
    List.forall₂_same.mpr (fun a _ => hrefl a)
  constructor
  · rw [serveAll_singleton]
    exact hsame
  · rw [serveAll_singleton]

/-- Two parts of a log that are followed one after the other. -/
theorem Follows.append
    (h : Follows serve Same s ks out s') (h' : Follows serve Same s' ls out' s'') :
    Follows serve Same s (ks ++ ls) (out ++ out') s'' := by
  obtain ⟨hanswers, rfl⟩ := h
  constructor
  · rw [serveAll_append]
    exact List.rel_append hanswers h'.answers
  · rw [serveAll_append]
    exact h'.state

/-- A batch follows its requests, if each of them in turn follows the one before. -/
theorem Follows.cons (k : κ) (first : List α)
    (hfirst : List.Forall₂ Same first (serve s k).1)
    (hrest : Follows serve Same (serve s k).2 ks out s') :
    Follows serve Same s (k :: ks) (first ++ out) s' where
  answers := List.rel_append hfirst hrest.answers
  state := hrest.state

end RequestLog
