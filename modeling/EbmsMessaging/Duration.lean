/-!
# Durations

A duration is a number of milliseconds. Its text uses milliseconds below one second and seconds
with as many decimals as are needed from there on; nothing at all is written `0ns`.
-/
namespace EbmsMessaging.Duration

/-- The decimals of a number of thousandths, without trailing zeros. -/
def decimals (thousandths : Nat) : String :=
  if thousandths = 0 then ""
  else if thousandths % 100 = 0 then s!".{thousandths / 100}"
  else if thousandths % 10 = 0 then s!".{thousandths / 100}{thousandths / 10 % 10}"
  else s!".{thousandths / 100}{thousandths / 10 % 10}{thousandths % 10}"

/-- The text of a duration of `ms` milliseconds. -/
def text (ms : Nat) : String :=
  if ms = 0 then "0ns"
  else if ms < 1000 then s!"{ms}ms"
  else s!"{ms / 1000}{decimals (ms % 1000)}s"

example : text 0 = "0ns" ∧ text 50 = "50ms" ∧ text 1000 = "1s" ∧ text 1500 = "1.5s" ∧
    text 61001 = "61.001s" ∧ text 1050 = "1.05s" := by
  decide +kernel

end EbmsMessaging.Duration
