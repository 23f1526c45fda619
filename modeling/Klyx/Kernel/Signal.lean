import Klyx.Kernel.Hardware

/-!
# Signals

`signal.h` numbers the signals; the switch of `__flush_signals` decides what
the kernel does with each number.  A signal is a raw byte: numbers outside the
table are legal values that the switch ignores.
-/

namespace Klyx

/-- `sig_t`, an unsigned byte. -/
abbrev Sig := BitVec 8

@[match_pattern] def sigabrt : Sig := 1#8
@[match_pattern] def sigalrm : Sig := 2#8
@[match_pattern] def sigbus : Sig := 3#8
@[match_pattern] def sigchld : Sig := 4#8
@[match_pattern] def sigcont : Sig := 5#8
@[match_pattern] def sigfpe : Sig := 6#8
@[match_pattern] def sighup : Sig := 7#8
@[match_pattern] def sigill : Sig := 8#8
@[match_pattern] def sigint : Sig := 9#8
@[match_pattern] def sigkill : Sig := 10#8
@[match_pattern] def sigpipe : Sig := 11#8
@[match_pattern] def sigquit : Sig := 12#8
@[match_pattern] def sigsegv : Sig := 13#8
@[match_pattern] def sigstop : Sig := 14#8
@[match_pattern] def sigterm : Sig := 15#8
@[match_pattern] def sigtstp : Sig := 16#8
@[match_pattern] def sigttin : Sig := 17#8
@[match_pattern] def sigttou : Sig := 18#8
@[match_pattern] def sigusr1 : Sig := 19#8
@[match_pattern] def sigusr2 : Sig := 20#8
@[match_pattern] def sigpoll : Sig := 21#8
@[match_pattern] def sigprof : Sig := 22#8
@[match_pattern] def sigsys : Sig := 23#8
@[match_pattern] def sigtrap : Sig := 24#8
@[match_pattern] def sigurg : Sig := 25#8
@[match_pattern] def sigvtalrm : Sig := 26#8
@[match_pattern] def sigxcpu : Sig := 27#8
@[match_pattern] def sigxfsz : Sig := 28#8

/-- `SIG_COUNT`. -/
def sigCount : Nat := 29

/-- The labels `sig_die`, `sig_cont`, `sig_stop` and `sig_end` of the switch. -/
inductive Disposition where
  | die (text : Option String)
  | cont
  | stop
  | ignore
deriving DecidableEq

/-- The switch of `__flush_signals`: the line printed, if any, and the label
jumped to. -/
def disposition (sig : Sig) : Disposition :=
  match sig with
  | sigabrt => .die (some "TODO: SIGABRT\n")
  | sigalrm => .die (some "TODO: SIGALRM\n")
  | sigbus => .die (some "TODO: SIGBUS\n")
  | sigchld => .die (some "TODO: SIGCHLD\n")
  | sigcont => .cont
  | sigfpe => .die (some "Floating point exception(Process finished)\n")
  | sighup => .die (some "TODO: SIGHUP\n")
  | sigill => .die (some "Illegal instruction(Process finished)\n")
  | sigint => .die (some "TODO: SIGINT\n")
  | sigkill => .die none
  | sigpipe => .die (some "TODO: SIGPIPE\n")
  | sigquit => .die (some "TODO: SIGQUIT\n")
  | sigsegv => .die (some "Segmentation fault(Process finished)\n")
  | sigstop => .stop
  | sigterm => .die (some "TODO: SIGTERM\n")
  | sigtstp => .die (some "TODO: SIGTSTP\n")
  | sigttin => .die (some "TODO: SIGTTIN\n")
  | sigttou => .die (some "TODO: SIGTTOU\n")
  | sigusr1 => .die (some "TODO: SIGUSR1\n")
  | sigusr2 => .die (some "TODO: SIGUSR2\n")
  | sigpoll => .die (some "TODO: SIGPOLL\n")
  | sigprof => .die (some "TODO: SIGPROF\n")
  | sigsys => .die (some "Invalid syscall(Process finished)\n")
  | sigtrap => .die (some "TODO: SIGTRAP\n")
  | sigurg => .die (some "TODO: SIGURG\n")
  | sigvtalrm => .die (some "TODO: SIGVTALRM\n")
  | sigxcpu => .die (some "TODO: SIGXCPU\n")
  | sigxfsz => .die (some "TODO: SIGXFSZ\n")
  | _ => .ignore

/-- Signals whose handling ends the process. -/
def Fatal (sig : Sig) : Prop :=
  ∃ text, disposition sig = .die text

instance (sig : Sig) : Decidable (Fatal sig) :=
  match h : disposition sig with
  | .die text => .isTrue ⟨text, h⟩
  | .cont => .isFalse (fun hf => by obtain ⟨_, hf⟩ := hf; rw [h] at hf; cases hf)
  | .stop => .isFalse (fun hf => by obtain ⟨_, hf⟩ := hf; rw [h] at hf; cases hf)
  | .ignore => .isFalse (fun hf => by obtain ⟨_, hf⟩ := hf; rw [h] at hf; cases hf)

/-- The signals that `x86_error_trap` reports. -/
def hardwareSignals : List Sig :=
  [sigfpe, sigsegv, sigill, sigtrap]

theorem fatal_of_mem_hardwareSignals {sig : Sig}
    (h : sig ∈ hardwareSignals) :
    Fatal sig := by
  simp only [hardwareSignals, List.mem_cons, List.not_mem_nil, or_false] at h
  rcases h with rfl | rfl | rfl | rfl <;> exact ⟨_, rfl⟩

theorem fatal_sigkill : Fatal sigkill :=
  ⟨none, rfl⟩

end Klyx
