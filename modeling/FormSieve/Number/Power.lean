/-!
# Powers

Powers of numbers are those of the core library in every module, also where a library of algebra
brings powers of its own.
-/

attribute [instance (high), default_instance (high + 1)] instPowNat
